import Sunstrider.Laws.Items.Sales
import Sunstrider.Lib.Run
import Mathlib.Algebra.BigOperators.Group.Finset.Basic
import Mathlib.Algebra.BigOperators.Group.Finset.Piecewise
import Mathlib.Algebra.Order.BigOperators.Group.Finset

/-!
# What the buyback slots remember

A vendor's buyback slots over whole runs of sales and of buying back, from empty slots. A ghost list
beside the player holds what was sold and not bought back (`recorded`).

`AddItemToBuyBackSlot` finds a free slot where its cursor points to one. Where it does not, the search
takes the first slot if that one is free, and the oldest slot if all are taken; in between, it forgets
the free slot that it has found. `Finds` leaves these sales out, and **what the buyback slots remember**
(`remembers_of_finds`) is about the runs without them.
-/

namespace Sunstrider.Items.Seller

open Lib (AllAlong allAlong_of_always foldl_keeps_of_allAlong mulU32 mulU32_eq toInt32 toInt32_eq)
open Player (maxMoneyAmount modifyMoney modifyMoney_gain modifyMoney_pay)

variable {sellPrice : ItemTemplates} {p : Seller} {item : Item} {slot : ℕ}

/-! ## What a step does to the slots and the purse -/

/-- The price of what a sale drives out of its slot. -/
def evictedPrice (p : Seller) : Outcome → ℕ
  | .sold _ slot =>
    match p.buyback slot with
    | some _ => p.buybackPrice slot
    | none => 0
  | _ => 0

/-- The purse, less the prices of the slots: what would be left if all were bought back. -/
def worth (p : Seller) : ℤ := p.money - ∑ slot ∈ slots, (p.buybackPrice slot : ℤ)

/-- The purse has room for the price of a sale. -/
def Fits (sellPrice : ItemTemplates) (p : Seller) : Op → Prop
  | .sell guid count _ => ∀ item n, p.saleOf sellPrice guid count = some (item, n) →
    p.money + sellPrice item.entry * n < maxMoneyAmount
  | .buyback _ _ => True

/-- The packet changes purse and prices in step, but for what it drives out. -/
def KeepsWorth (sellPrice : ItemTemplates) (p : Seller) (op : Op) : Prop :=
  Fits sellPrice p op →
    (p.step sellPrice op).1.worth = p.worth + p.evictedPrice (p.step sellPrice op).2

/-- A sale drives an item out only if all slots are taken, and then one with the oldest time. -/
def EvictsOldest (sellPrice : ItemTemplates) (p : Seller) (op : Op) : Prop :=
  ∀ sold slot, (p.step sellPrice op).2 = .sold sold slot → (p.buyback slot).isSome →
    ∀ i ∈ slots, (p.buyback i).isSome ∧ p.buybackTimestamp slot ≤ p.buybackTimestamp i

/-- A sale for which the search for a slot finds a free one, or there is none. -/
def Finds (sellPrice : ItemTemplates) (p : Seller) : Op → Prop
  | .sell guid count _ => p.saleOf sellPrice guid count = none ∨
    p.buyback p.currentBuybackSlot = none ∨ p.buyback buybackSlotStart = none ∨
    ∀ i ∈ slots, (p.buyback i).isSome
  | .buyback _ _ => True

instance (sellPrice : ItemTemplates) (p : Seller) : ∀ op, Decidable (Finds sellPrice p op)
  | .sell guid count _ => inferInstanceAs (Decidable (p.saleOf sellPrice guid count = none ∨
    p.buyback p.currentBuybackSlot = none ∨ p.buyback buybackSlotStart = none ∨
    ∀ i ∈ slots, (p.buyback i).isSome))
  | .buyback _ _ => inferInstanceAs (Decidable True)

/-- Of a changed slot the sum sees the change. -/
theorem sum_update (f : ℕ → ℕ) (h : slot ∈ slots) (price : ℕ) :
    ∑ i ∈ slots, (Function.update f slot price i : ℤ) = ∑ i ∈ slots, (f i : ℤ) - f slot + price := by
  have hcongr : ∑ i ∈ slots.erase slot, (Function.update f slot price i : ℤ) =
      ∑ i ∈ slots.erase slot, (f i : ℤ) := by
    refine Finset.sum_congr rfl fun i hi => ?_
    rw [Function.update_of_ne (Finset.ne_of_mem_erase hi)]
  rw [← Finset.add_sum_erase _ _ h, hcongr, Function.update_self, ← Finset.add_sum_erase slots _ h]
  ring

theorem keepsWorth (h : Kept sellPrice p) (op : Op) : KeepsWorth sellPrice p op := by
  intro hfits
  rcases step_cases sellPrice h.cursor h.inventory op with
    hrefused | ⟨guid, count, now, item, n, rfl, hsale, hsells⟩ | ⟨slot, dest, item, rfl, hbuys⟩
  · rw [hrefused]
    exact (add_zero _).symm
  · obtain ⟨q, sold, hq, hout, t, ht, hr⟩ := hsells.took
    have hroom : p.money + sellPrice item.entry * n < maxMoneyAmount := hfits item n hsale
    have hbound : sellPrice item.entry * n < 2 ^ 31 := by
      unfold maxMoneyAmount at hroom
      omega
    have hprice : mulU32 (sellPrice item.entry) n = sellPrice item.entry * n :=
      mulU32_eq (by omega)
    have hmoney : (p.step sellPrice (.sell guid count now)).1.money =
        p.money + sellPrice item.entry * n := by
      rw [hr]
      show modifyMoney p.money (toInt32 (mulU32 (sellPrice item.entry) n)) = _
      rw [hprice, toInt32_eq hbound, modifyMoney_gain hroom]
    have hprices : (p.step sellPrice (.sell guid count now)).1.buybackPrice =
        Function.update p.buybackPrice p.slotToFill (sellPrice item.entry * n) := by
      rw [hr]
      show t.buybackPrice = _
      rw [ht.price, hq.same.slotToFill, hq.same.price, hq.entry, hq.count, hprice]
    have hevicted : p.evictedPrice (p.step sellPrice (.sell guid count now)).2 =
        p.buybackPrice p.slotToFill := by
      rw [hout]
      unfold evictedPrice
      cases hslot : p.buyback p.slotToFill with
      | none => simp only [hslot, (h.free _ hslot).1]
      | some victim => simp only [hslot]
    unfold worth
    rw [hmoney, hprices, hevicted, sum_update _ (slotToFill_mem h.cursor)]
    push_cast
    ring
  · obtain ⟨q, hq, hr⟩ := hbuys.stored h
    have hbound : p.buybackPrice slot < 2 ^ 31 := by
      have hpaid := hbuys.paid
      have hmax := h.money
      unfold maxMoneyAmount at hmax
      omega
    have hmoney : (p.step sellPrice (.buyback slot dest)).1.money =
        p.money - p.buybackPrice slot := by
      rw [hr.same.money, hq.money]
      show modifyMoney p.money (-toInt32 (p.buybackPrice slot)) = _
      rw [toInt32_eq hbound, modifyMoney_pay hbuys.paid]
    have hprices : (p.step sellPrice (.buyback slot dest)).1.buybackPrice =
        Function.update p.buybackPrice slot 0 := by
      rw [hr.same.price, hq.price]
    unfold worth
    rw [hmoney, hprices, hbuys.outcome, sum_update _ (h.range slot item hbuys.there),
      Nat.cast_sub hbuys.paid]
    show _ = _ + ((0 : ℕ) : ℤ)
    push_cast
    ring

theorem evictsOldest (h : Kept sellPrice p) {op : Op} (hfinds : Finds sellPrice p op) :
    EvictsOldest sellPrice p op := by
  intro sold slot hout htaken
  rcases step_cases sellPrice h.cursor h.inventory op with
    hrefused | ⟨guid, count, now, item, n, rfl, hsale, hsells⟩ | ⟨slot', dest, item, rfl, hbuys⟩
  · rw [hrefused] at hout
    cases hout
  · obtain ⟨q, sold', -, hout', -⟩ := hsells.took
    rw [hout'] at hout
    cases hout
    have hcursor : (p.buyback p.currentBuybackSlot).isSome := by
      by_contra hnone
      unfold slotToFill at htaken
      rw [if_neg hnone] at htaken
      exact hnone htaken
    have hslot : p.slotToFill =
        p.oldestSlot (p.buybackTimestamp buybackSlotStart) buybackSlotStart laterSlots :=
      if_pos hcursor
    rcases hfinds with hfinds | hfinds | hfinds | hfinds
    · rw [hsale] at hfinds
      cases hfinds
    · rw [hfinds] at hcursor
      cases hcursor
    · -- a free first slot has no time, so the search stays there
      rw [hslot, (h.free _ hfinds).2, oldestSlot_zero, hfinds] at htaken
      cases htaken
    · intro i hi
      refine ⟨hfinds i hi, ?_⟩
      rw [hslot]
      refine oldestSlot_le (fun j hj => hfinds j (mem_laterSlots.mp hj).1) buybackSlotStart i ?_
      by_cases heq : i = buybackSlotStart
      · rw [heq]
        exact List.mem_cons_self
      · exact List.mem_cons_of_mem _ (mem_laterSlots.mpr ⟨hi, heq⟩)
  · rw [hbuys.outcome] at hout
    cases hout

/-! ## What was sold and not bought back -/

/-- The items that were sold and not bought back, after one more answer. -/
def recorded (sold : List Item) : Outcome → List Item
  | .refused => sold
  | .sold item _ => item :: sold
  | .bought item _ => sold.erase item

/-- A step beside the list of what was sold. -/
def logged (sellPrice : ItemTemplates) (s : Seller × List Item) (op : Op) : Seller × List Item :=
  ((s.1.step sellPrice op).1, recorded s.2 (s.1.step sellPrice op).2)

/-- What the slots hold was sold, and what was sold is in the slots. -/
structure Holds (s : Seller × List Item) : Prop where
  recorded : ∀ slot item, s.1.buyback slot = some item → item ∈ s.2
  distinct : s.2.Nodup
  held : ∀ item ∈ s.2, ∃ slot, s.1.buyback slot = some item

theorem Holds.card_le {sold : List Item} (h : Kept sellPrice p) (hs : Holds (p, sold))
    (taken : ∀ i ∈ slots, (p.buyback i).isSome) : slots.card ≤ sold.length := by
  classical
  have hitem : ∀ i : slots, ∃ item, p.buyback i = some item := fun i =>
    Option.isSome_iff_exists.mp (taken i i.2)
  choose item hitem using hitem
  have hinj : Function.Injective item := by
    intro i j heq
    exact Subtype.ext (h.once i j _ _ (hitem i) (hitem j) (congrArg Item.guid heq))
  calc slots.card = (slots.attach.image item).card := by
        rw [Finset.card_image_of_injective _ hinj, Finset.card_attach]
    _ ≤ sold.toFinset.card := by
        refine Finset.card_le_card fun it hit => ?_
        obtain ⟨i, -, rfl⟩ := Finset.mem_image.mp hit
        exact List.mem_toFinset.mpr (hs.recorded i _ (hitem i))
    _ ≤ sold.length := List.toFinset_card_le sold

/-- While no more items are outstanding than there are slots, nothing that was sold is lost. -/
theorem Holds.step {s : Seller × List Item} (h : Kept sellPrice s.1) (hs : Holds s) {op : Op}
    (hfinds : Finds sellPrice s.1 op) (hfew : (logged sellPrice s op).2.length ≤ slots.card) :
    Holds (logged sellPrice s op) := by
  obtain ⟨p, sold⟩ := s
  have hevicts := evictsOldest h hfinds
  unfold logged at hfew ⊢
  rcases step_cases sellPrice h.cursor h.inventory op with
    hrefused | ⟨guid, count, now, item, n, rfl, -, hsells⟩ | ⟨slot, dest, item, rfl, hbuys⟩
  · rw [hrefused]
    exact hs
  · obtain ⟨q, new, hq, hout, t, ht, hr⟩ := hsells.took
    rw [hout] at hfew ⊢
    -- an item that is driven out is one too many
    have hfree : p.buyback p.slotToFill = none := by
      by_contra htaken
      have hcard := hs.card_le h fun i hi =>
        (hevicts new _ hout (Option.isSome_iff_ne_none.mpr htaken) i hi).1
      have hlen : sold.length + 1 ≤ slots.card := hfew
      omega
    have hbuyback : ∀ i, (p.step sellPrice (.sell guid count now)).1.buyback i =
        Function.update p.buyback p.slotToFill (some new) i := by
      intro i
      rw [hr]
      show t.buyback i = _
      rw [ht.buyback, hq.same.slotToFill, hq.same.buyback]
    refine ⟨?_, ?_, ?_⟩
    · intro i it hi
      rw [hbuyback] at hi
      by_cases hne : i = p.slotToFill
      · rw [hne, Function.update_self] at hi
        cases hi
        exact List.mem_cons_self
      · rw [Function.update_of_ne hne] at hi
        exact List.mem_cons_of_mem new (hs.recorded i it hi)
    · refine List.nodup_cons.mpr ⟨fun hmem => ?_, hs.distinct⟩
      obtain ⟨i, hi⟩ := hs.held new hmem
      rcases hq.origin with hin | hnew
      · exact h.apart i new hi hin
      · exact lt_irrefl _ (hnew ▸ h.issued i new hi)
    · intro it hit
      rcases List.mem_cons.mp hit with rfl | hit
      · refine ⟨p.slotToFill, ?_⟩
        rw [hbuyback, Function.update_self]
      · obtain ⟨i, hi⟩ := hs.held it hit
        refine ⟨i, ?_⟩
        rw [hbuyback, Function.update_of_ne ?_]
        · exact hi
        · intro heq
          rw [heq, hfree] at hi
          cases hi
  · obtain ⟨q, hq, hr⟩ := hbuys.stored h
    rw [hbuys.outcome]
    have hbuyback : ∀ i, (p.step sellPrice (.buyback slot dest)).1.buyback i =
        Function.update p.buyback slot none i := by
      intro i
      rw [hr.same.buyback, hq.buyback]
    refine ⟨?_, hs.distinct.erase item, ?_⟩
    · intro i it hi
      rw [hbuyback] at hi
      by_cases hne : i = slot
      · rw [hne, Function.update_self] at hi
        cases hi
      · rw [Function.update_of_ne hne] at hi
        refine (List.mem_erase_of_ne fun heq => ?_).mpr (hs.recorded i it hi)
        exact hne (h.once i slot it item hi hbuys.there (congrArg Item.guid heq))
    · intro it hit
      have hout : it ≠ item ∧ it ∈ sold := hs.distinct.mem_erase_iff.mp hit
      obtain ⟨i, hi⟩ := hs.held it hout.2
      refine ⟨i, ?_⟩
      rw [hbuyback, Function.update_of_ne ?_]
      · exact hi
      · rintro rfl
        rw [hbuys.there] at hi
        exact hout.1 (Option.some.inj hi).symm

/-! ## Runs -/

/-- A player with empty buyback slots. -/
structure Fresh (p : Seller) : Prop where
  cursor : p.currentBuybackSlot ∈ slots
  money : p.money ≤ maxMoneyAmount
  distinct : p.guids.Nodup
  issued : ∀ guid ∈ p.guids, guid < p.nextGuid
  empty : ∀ slot, p.buyback slot = none ∧ p.buybackPrice slot = 0 ∧ p.buybackTimestamp slot = 0

theorem Fresh.kept (h : p.Fresh) : Kept sellPrice p where
  cursor := h.cursor
  money := h.money
  inventory := ⟨h.distinct, h.issued⟩
  free slot _ := (h.empty slot).2
  range slot item hs := by
    rw [(h.empty slot).1] at hs
    cases hs
  price slot item hs := by
    rw [(h.empty slot).1] at hs
    cases hs
  issued slot item hs := by
    rw [(h.empty slot).1] at hs
    cases hs
  apart slot item hs := by
    rw [(h.empty slot).1] at hs
    cases hs
  once slot _ item _ hs := by
    rw [(h.empty slot).1] at hs
    cases hs

/-- The state after a run, beside what was sold in it and not bought back. -/
def afterRun (sellPrice : ItemTemplates) (p : Seller) (ops : List Op) : Seller × List Item :=
  ops.foldl (logged sellPrice) (p, [])

/-- Every item is in one place: in one buyback slot or once in the inventory. -/
structure InOnePlace (p : Seller) : Prop where
  inventory : p.guids.Nodup
  notBoth : ∀ slot item, p.buyback slot = some item → item.guid ∉ p.guids
  once : ∀ slot slot' item item', p.buyback slot = some item → p.buyback slot' = some item' →
    item.guid = item'.guid → slot = slot'

/-- **What the buyback slots remember.** In a run from empty slots whose sales all find a slot: while no
more items are outstanding than there are slots, each of them is in a slot as it was sold, with its price;
a sale drives an item out only if all slots are taken, and then one with the oldest time; and purse and
prices change in step, but for what is driven out. -/
theorem remembers_of_finds (sellPrice : ItemTemplates) {p : Seller} (fresh : p.Fresh) (ops : List Op)
    (finds : AllAlong (logged sellPrice) (fun s op => Finds sellPrice s.1 op) (p, []) ops) :
    ((∀ l, l <+: ops → (afterRun sellPrice p l).2.length ≤ slots.card) →
      ∀ item ∈ (afterRun sellPrice p ops).2, ∃ slot ∈ slots,
        (afterRun sellPrice p ops).1.buyback slot = some item ∧
        (afterRun sellPrice p ops).1.buybackPrice slot = mulU32 (sellPrice item.entry) item.count) ∧
    InOnePlace (afterRun sellPrice p ops).1 ∧
    AllAlong (logged sellPrice)
      (fun s op => EvictsOldest sellPrice s.1 op ∧ KeepsWorth sellPrice s.1 op) (p, []) ops := by
  have hkeeps : ∀ s op, Kept sellPrice s.1 → Kept sellPrice (logged sellPrice s op).1 :=
    fun s op h => h.step op
  have hkept : Kept sellPrice (afterRun sellPrice p ops).1 :=
    Lib.foldl_keeps hkeeps ops fresh.kept
  refine ⟨fun hfew item hitem => ?_, ⟨hkept.inventory.distinct, hkept.apart, hkept.once⟩, ?_⟩
  · have hlength : AllAlong (logged sellPrice)
        (fun s op => (logged sellPrice s op).2.length ≤ slots.card) (p, []) ops :=
      allAlong_of_always (P := fun s : Seller × List Item => s.2.length ≤ slots.card) hfew
    have hall := finds.and hlength
    have hstart : Holds (p, []) := by
      refine ⟨fun slot item hs => ?_, List.nodup_nil, fun _ h => (nomatch h)⟩
      rw [(fresh.empty slot).1] at hs
      cases hs
    have hstep : ∀ s op, Kept sellPrice s.1 ∧ Holds s →
        Finds sellPrice s.1 op ∧ (logged sellPrice s op).2.length ≤ slots.card →
        Kept sellPrice (logged sellPrice s op).1 ∧ Holds (logged sellPrice s op) :=
      fun s op h hop => ⟨hkeeps s op h.1, h.2.step h.1 hop.1 hop.2⟩
    have hholds := foldl_keeps_of_allAlong hstep ⟨fresh.kept, hstart⟩ hall
    obtain ⟨slot, hslot⟩ := hholds.2.held item hitem
    exact ⟨slot, hkept.range slot item hslot, hslot, hkept.price slot item hslot⟩
  · refine finds.mono_of_keeps (fun s op h _ => hkeeps s op h) (fun s op h hop => ?_) fresh.kept
    exact ⟨evictsOldest h hop, keepsWorth h op⟩

/-- A player with twenty items of one kind. -/
def peddler : Seller where
  money := 100
  items := (List.range 20).map fun i => ⟨i, 1, 2, false, true, false⟩
  buyback _ := none
  buybackPrice _ := 0
  buybackTimestamp _ := 0
  currentBuybackSlot := buybackSlotStart
  lootGuid := 100
  loginTime := 0
  nextGuid := 20

theorem fresh_peddler : peddler.Fresh where
  cursor := by decide
  money := by decide
  distinct := by decide
  issued := by decide
  empty _ := ⟨rfl, rfl, rfl⟩

/-- A stack is sold in two parts, and the first part is bought back. -/
theorem remembers_peddler :
    ((∀ l, l <+: [.sell 3 1 10, .sell 3 0 11, .buyback 74 (some [⟨none, 1⟩])] →
        (afterRun (fun _ => 5) peddler l).2.length ≤ slots.card) →
      ∀ item ∈ (afterRun (fun _ => 5) peddler
          [.sell 3 1 10, .sell 3 0 11, .buyback 74 (some [⟨none, 1⟩])]).2, ∃ slot ∈ slots,
        (afterRun (fun _ => 5) peddler
          [.sell 3 1 10, .sell 3 0 11, .buyback 74 (some [⟨none, 1⟩])]).1.buyback slot = some item ∧
        (afterRun (fun _ => 5) peddler
            [.sell 3 1 10, .sell 3 0 11, .buyback 74 (some [⟨none, 1⟩])]).1.buybackPrice slot =
          mulU32 5 item.count) ∧
    InOnePlace (afterRun (fun _ => 5) peddler
      [.sell 3 1 10, .sell 3 0 11, .buyback 74 (some [⟨none, 1⟩])]).1 ∧
    AllAlong (logged fun _ => 5)
      (fun s op => EvictsOldest (fun _ => 5) s.1 op ∧ KeepsWorth (fun _ => 5) s.1 op) (peddler, [])
      [.sell 3 1 10, .sell 3 0 11, .buyback 74 (some [⟨none, 1⟩])] :=
  remembers_of_finds (fun _ => 5) fresh_peddler _ (by decide +kernel)

/-- The first sale, which drives nothing out, adds its price to the purse and to the prices: their sum
grows twice. After twelve sales and two items bought back, the second sale drives out the oldest item,
although a slot is free. -/
theorem sum_changed_and_evicted_early :
    ((peddler.step (fun _ => 5) (.sell 0 0 10)).1.money = 110 ∧
      (peddler.step (fun _ => 5) (.sell 0 0 10)).1.buybackPrice 74 = 10) ∧
    ∃ ops : List Op, (afterRun (fun _ => 5) peddler ops).2.length = 11 ∧
      (afterRun (fun _ => 5) peddler ops).1.buyback 81 = none ∧
      ((afterRun (fun _ => 5) peddler ops).1.buyback 74).isSome ∧
      ∃ item, ((afterRun (fun _ => 5) peddler ops).1.step (fun _ => 5) (.sell 13 0 30)).2 =
        .sold item 74 :=
  ⟨by decide +kernel,
    (List.range 12).map (fun i => .sell i 0 (10 + i)) ++
      [.buyback 79 (some [⟨none, 2⟩]), .buyback 81 (some [⟨none, 2⟩]), .sell 12 0 29],
    by decide +kernel, by decide +kernel, by decide +kernel, ⟨13, 1, 2, false, true, false⟩,
    by decide +kernel⟩

end Sunstrider.Items.Seller
