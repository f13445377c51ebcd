import Sunstrider.Laws.Inventory.Banker
import Sunstrider.Laws.Inventory.ExactPlans
import Sunstrider.Laws.Inventory.Without

/-!
# Exchanging items keeps their number

`SwapItems` destroys all items of one entry that are counted, and stores or mails as many of another. No
item of the first is left, and the number is kept (`Exchanged`), exactly where `Exchangeable` holds of the
storage before (`swapItems_exact_iff`).
-/

namespace Sunstrider.Inventory

open Sunstrider.Lib (Puts fill capacity survey mem_of_mem_survey)

variable {T : Templates}

namespace Player

variable {v v' w : Player} {p q : Pos} {item : Item} {entry n : ℕ}

/-! ## What is gained -/

/-- There are `n` more items of an entry, and every place holds what it held, or an item of the entry. -/
structure Gains (T : Templates) (entry n : ℕ) (v v' : Player) : Prop where
  total : ∀ e, totalOf T v' e = totalOf T v e + if entry = e then n else 0
  origin : ∀ p a, v'.stackAt T p = some a → a.entry = entry ∨ v.stackAt T p = some a
  kept : ∀ p a, v.stackAt T p = some a → ∃ b, v'.stackAt T p = some b ∧ b.entry = a.entry

theorem Gains.of_items (h : v'.items = v.items) : Gains T entry 0 v v' := by
  have hstack : v'.stackAt T = v.stackAt T := stackAt_of_items h
  refine ⟨fun e => ?_, fun p a ha => ?_, fun p a ha => ?_⟩
  · have htotal : totalOf T v' e = totalOf T v e :=
      congrArg (Lib.total Stack.entry Stack.count e) hstack
    rw [htotal, ite_self, Nat.add_zero]
  · rw [hstack] at ha
    exact .inr ha
  · rw [hstack]
    exact ⟨a, ha, rfl⟩

theorem Gains.trans {m : ℕ} (h : Gains T entry n v v') (h' : Gains T entry m v' w) :
    Gains T entry (n + m) v w := by
  refine ⟨fun e => ?_, fun p a ha => ?_, fun p a ha => ?_⟩
  · have htotal := h.total e
    have htotal' := h'.total e
    by_cases hentry : entry = e
    · rw [if_pos hentry] at htotal htotal' ⊢
      rw [htotal', htotal, Nat.add_assoc]
    · rw [if_neg hentry, Nat.add_zero] at htotal htotal' ⊢
      exact htotal'.trans htotal
  · rcases h'.origin p a ha with hentry | ha'
    · exact .inl hentry
    · exact h.origin p a ha'
  · obtain ⟨b, hb, hentry⟩ := h.kept p a ha
    obtain ⟨c, hc, hentry'⟩ := h'.kept p b hb
    exact ⟨c, hc, hentry'.trans hentry⟩

theorem Gains.of_puts {clone : Bool} {own : ℕ}
    (h : Puts (fun _ => True) Stack.entry Stack.count Stack.guid entry own clone (p, n) (v.held T)
      (v'.held T))
    (hsame : ∀ a, v.stackAt T p = some a → a.entry = entry) : Gains T entry n v v' := by
  have hother : ∀ q, q ≠ p → v'.stackAt T q = v.stackAt T q := fun q hq => h.eq_of_ne hq
  refine ⟨fun e => ?_, fun q a ha => ?_, fun q a ha => ?_⟩
  · have htotal := h.total_eq hsame e
    exact htotal
  · by_cases hq : q = p
    · rw [hq] at ha
      rcases h.taken trivial with ⟨b, c, hb, hc, hkind, -⟩ | ⟨-, c, hc, hkind, -⟩
      · rw [show v'.stackAt T p = some c from hc] at ha
        cases ha
        exact .inl (hkind.trans (hsame b hb))
      · rw [show v'.stackAt T p = some c from hc] at ha
        cases ha
        exact .inl hkind
    · exact .inr ((hother q hq).symm.trans ha)
  · by_cases hq : q = p
    · rw [hq] at ha ⊢
      rcases h.taken trivial with ⟨b, c, hb, hc, hkind, -⟩ | ⟨hnone, -⟩
      · rw [show v.stackAt T p = some b from hb] at ha
        cases ha
        exact ⟨c, hc, hkind⟩
      · rw [show v.stackAt T p = none from hnone] at ha
        cases ha
    · exact ⟨a, (hother q hq).trans ha, rfl⟩

/-! ## Storing what was made -/

/-- The positions of a plan take what was made: they are different places, none of them a slot for bags,
each with a part that goes into one stack and with items of the same entry, if any. -/
structure Takes (T : Templates) (v : Player) (entry : ℕ) (dest : List ItemPosCount) : Prop where
  apart : (dest.map ItemPosCount.pos).Nodup
  place : ∀ c ∈ dest, v.HasPlace T c.pos
  plain : ∀ c ∈ dest, isBagPos c.pos = false
  le : ∀ c ∈ dest, c.count.toNat ≤ (T entry).stackable
  same : ∀ c ∈ dest, ∀ a, v.stackAt T c.pos = some a → a.entry = entry

variable {c : ItemPosCount} {dest : List ItemPosCount}

theorem Takes.puts (h : Takes T v item.entry (c :: dest)) (clone : Bool) :
    Puts (fun _ => True) Stack.entry Stack.count Stack.guid item.entry item.guid clone
      (c.pos, c.count.toNat) (v.held T) ((v.storeItemAt T item c clone).held T) := by
  apply storeItemAt_puts clone (h.place c List.mem_cons_self) ?_ (h.le c List.mem_cons_self) trivial
  intro hbag
  rw [h.plain c List.mem_cons_self] at hbag
  cases hbag

theorem Takes.gains (h : Takes T v item.entry (c :: dest)) (clone : Bool) :
    Gains T item.entry c.count.toNat v (v.storeItemAt T item c clone) :=
  .of_puts (h.puts clone) (h.same c List.mem_cons_self)

theorem Takes.tail (h : Takes T v entry (c :: dest)) : Takes T v entry dest where
  apart := (List.nodup_cons.mp h.apart).2
  place d hd := h.place d (List.mem_cons_of_mem c hd)
  plain d hd := h.plain d (List.mem_cons_of_mem c hd)
  le d hd := h.le d (List.mem_cons_of_mem c hd)
  same d hd := h.same d (List.mem_cons_of_mem c hd)

/-- The other positions are as before when one has taken its part. -/
theorem Takes.rest (h : Takes T v item.entry (c :: dest)) (clone : Bool) :
    Takes T (v.storeItemAt T item c clone) item.entry dest where
  apart := h.tail.apart
  place d hd := (h.tail.place d hd).storeItemAt c clone
  plain := h.tail.plain
  le := h.tail.le
  same d hd a ha := by
    have hne : d.pos ≠ c.pos := by
      intro heq
      apply (List.nodup_cons.mp h.apart).1
      rw [← heq]
      exact List.mem_map_of_mem hd
    have hother : (v.storeItemAt T item c clone).stackAt T d.pos = v.stackAt T d.pos :=
      (h.puts clone).eq_of_ne hne
    exact h.tail.same d hd a (hother.symm.trans ha)

/-- **What was made is stored.** -/
theorem storeCreated_gains (dest : List ItemPosCount) {v : Player} (h : Takes T v item.entry dest) :
    Gains T item.entry (dest.map fun c => c.count.toNat).sum v (storeCreated T item dest v) := by
  induction dest generalizing v with
  | nil => exact .of_items rfl
  | cons c dest ih =>
    cases dest with
    | nil => exact h.gains false
    | cons d dest =>
      rw [List.map_cons, List.sum_cons]
      unfold storeCreated
      split
      · next hskip =>
        -- a clone of no items is not made
        have hzero : c.count = 0 := by
          simp only [Bool.and_eq_true, decide_eq_true_eq] at hskip
          exact hskip.1
        rw [hzero, UInt8.toNat_zero, Nat.zero_add]
        exact ih h.tail
      · exact (h.gains true).trans (ih (h.rest true))

theorem Takes.of_items (h : Takes T v entry dest) (hitems : v'.items = v.items) :
    Takes T v' entry dest where
  apart := h.apart
  place c hc := (h.place c hc).of_items hitems
  plain := h.plain
  le := h.le
  same c hc a ha := h.same c hc a (by rw [← ha, stackAt_of_items hitems])

theorem storeNewItem_gains (h : Takes T v entry dest) :
    Gains T entry (dest.map fun c => c.count.toNat).sum v (v.storeNewItem T entry dest) := by
  unfold storeNewItem
  dsimp only
  split
  · next hnone =>
    rw [Nat.lt_one_iff.mp hnone]
    exact .of_items rfl
  · have hnext : Gains T entry 0 v { v with nextGuid := v.nextGuid + 1 } := .of_items rfl
    have hmade : Takes T { v with nextGuid := v.nextGuid + 1 }
        (v.createItem T entry (dest.map fun p => p.count.toNat).sum).entry dest := h.of_items rfl
    have hstored := hnext.trans (storeCreated_gains dest hmade)
    rw [Nat.zero_add] at hstored
    exact hstored

/-! ## Space anywhere -/

/-- The rooms for new items of an entry in all the inventory. -/
def roomsFor (T : Templates) (v : Player) (entry : ℕ) : List (Pos × ℕ) :=
  v.storeRooms T (v.sought T entry none) (nullBag, nullSlot) false

/-- The player may carry so many more of an entry, and there is room for them. -/
def HasSpaceFor (T : Templates) (v : Player) (entry count : ℕ) : Prop :=
  (v.canTakeMoreSimilar T entry (UInt32.ofNat count) none).2 = 0 ∧ count ≤ capacity (v.roomsFor T entry)

theorem roomsFor_eq (v : Player) (entry : ℕ) :
    v.roomsFor T entry =
      survey [] (v.storeVisits T (v.sought T entry none) (nullBag, nullSlot)).flatten := by
  unfold roomsFor storeRooms
  rfl

variable {res : InventoryResult} {count noSimilar : UInt32}

/-- What is answered where some may be taken, in terms of the rooms. -/
theorem canStoreNewItem_eq (hmore : v.canTakeMoreSimilar T entry count none = (res, noSimilar))
    (hne : count ≠ noSimilar) : ∃ s, Filled (v.roomsFor T entry) (count - noSimilar).toNat s ∧
      v.canStoreNewItem T (nullBag, nullSlot) entry count = answerOf noSimilar s := by
  have hn : (count - noSimilar).toNat ≠ 0 := by
    intro hzero
    exact hne (sub_eq_zero.mp ((uint32_eq_zero_iff _).mpr hzero))
  have hsettled : Settled (v.roomsFor T entry) (count - noSimilar).toNat noSimilar
      ((v.storeSearches T (v.sought T entry none) (nullBag, nullSlot)).foldlM
        (fun s search => settle noSimilar (search s)) ⟨[], (count - noSimilar).toNat⟩) := by
    exact settled_storeSearches (filled_nil _) hn
  obtain ⟨s, hs, hanswer⟩ := settled_answer hsettled
  refine ⟨s, hs, ?_⟩
  unfold canStoreNewItem canStoreItemCount
  rw [if_neg (by simp), hmore]
  dsimp only
  rw [if_neg (by simp [hne])]
  exact hanswer

/-- Where none may be taken, the answer says so. -/
theorem canStoreNewItem_refused (hmore : v.canTakeMoreSimilar T entry count none = (res, count))
    (hres : res ≠ .ok) : (v.canStoreNewItem T (nullBag, nullSlot) entry count).res = res := by
  unfold canStoreNewItem canStoreItemCount
  rw [if_neg (by simp), hmore]
  dsimp only
  rw [if_pos (by simp [hres])]

/-- **What `CanStoreNewItem` plans** where any place may be taken. -/
theorem canStoreNewItem_cases (v : Player) (entry : ℕ) {n : ℕ} (hpos : 0 < n) (hlt : n < 2 ^ 32) :
    v.HasSpaceFor T entry n ∧
        (v.canStoreNewItem T (nullBag, nullSlot) entry (UInt32.ofNat n)).res = .ok ∧
        (v.canStoreNewItem T (nullBag, nullSlot) entry (UInt32.ofNat n)).dest =
          (fill (v.roomsFor T entry) n).map part ∨
      ¬ v.HasSpaceFor T entry n ∧
        (v.canStoreNewItem T (nullBag, nullSlot) entry (UInt32.ofNat n)).res ≠ .ok := by
  have hcount : (UInt32.ofNat n).toNat = n := UInt32.toNat_ofNat_of_lt' hlt
  have hnonzero : UInt32.ofNat n ≠ 0 := by
    intro hzero
    rw [uint32_eq_zero_iff, hcount] at hzero
    omega
  have hcases := canTakeMoreSimilar_cases (T := T) v entry (UInt32.ofNat n) none
  unfold HasSpaceFor
  cases hmore : v.canTakeMoreSimilar T entry (UInt32.ofNat n) none with
  | mk res noSimilar =>
    rw [hmore] at hcases
    dsimp only at hcases ⊢
    by_cases hall : UInt32.ofNat n = noSimilar
    · rw [← hall] at hcases hmore ⊢
      have hres := hcases.resolve_right hnonzero
      refine .inr ⟨fun h => hnonzero h.1, ?_⟩
      rw [canStoreNewItem_refused hmore (by rw [hres]; decide), hres]
      decide
    · obtain ⟨s, hs, hanswer⟩ := canStoreNewItem_eq hmore hall
      rw [hanswer, answerOf_dest, hs.dest]
      rcases answerOf_cases noSimilar hs with ⟨hle, heq⟩ | ⟨hcap, heq⟩
      · rw [heq]
        by_cases hzero : noSimilar = 0
        · rw [hzero, UInt32.sub_zero, hcount] at hle ⊢
          exact .inl ⟨⟨rfl, hle⟩, rfl, rfl⟩
        · refine .inr ⟨fun h => hzero h.1, ?_⟩
          unfold closing
          rw [if_neg hzero]
          exact fun h => nomatch h
      · rw [heq]
        refine .inr ⟨?_, fun h => nomatch h⟩
        rintro ⟨hzero, hle⟩
        rw [hzero, UInt32.sub_zero, hcount] at hcap
        omega

/-- The rooms are at places for items of the entry, none of them a slot for bags. -/
theorem mem_roomsFor {c : Pos × ℕ} (hc : c ∈ v.roomsFor T entry) :
    v.HasPlace T c.1 ∧ isBagPos c.1 = false ∧
      ∃ merge, v.space T (v.sought T entry none) merge c.1 = some c.2 := by
  have hslots : ∀ first last merge, last ≤ 256 → 23 ≤ first ∧ last ≤ 39 ∨ 86 ≤ first ∧ last ≤ 118 →
      c ∈ v.slotVisits T (v.sought T entry none) first last merge (nullBag, nullSlot) →
      v.HasPlace T c.1 ∧ isBagPos c.1 = false ∧
        ∃ merge, v.space T (v.sought T entry none) merge c.1 = some c.2 := by
    intro first last merge hlast hrange hc
    obtain ⟨⟨⟨hown, hfirst, hlt⟩, -⟩, hspace⟩ := (mem_slotVisits hlast).mp hc
    refine ⟨.inl ⟨hown, ?_⟩, ?_, merge, hspace⟩
    · simp only [isKeyringSlot, Bool.and_eq_true, decide_eq_true_eq]
      omega
    · rw [Bool.eq_false_iff]
      intro hbag
      have hslot := (isBagPos_iff.mp hbag).2
      simp only [isBagSlot, isInventoryBagSlot, isBankBagSlot, Bool.or_eq_true, Bool.and_eq_true,
        decide_eq_true_eq] at hslot
      omega
  obtain ⟨found, hmem, hfound⟩ :=
    List.mem_flatten.mp ((mem_of_mem_survey hc).resolve_left List.not_mem_nil).1
  rcases storeVisits_cases hmem with ⟨merge, rfl⟩ | ⟨merge, -, rfl⟩ |
    ⟨merge, nonSpecialized, bag, hbag, rfl⟩
  · exact hslots 23 39 merge (by decide) (.inl (by decide)) hfound
  · exact hslots 86 118 merge (by decide) (.inr (by decide)) hfound
  · have hslot := isBagSlot_of_inventory (inventoryBags bag hbag)
    unfold kindVisits at hfound
    split at hfound
    · obtain ⟨⟨⟨hin, hplace⟩, -⟩, hspace⟩ := (mem_bagVisits hslot).mp hfound
      refine ⟨hplace, ?_, merge, hspace⟩
      rw [Bool.eq_false_iff]
      intro hbagPos
      exact bagSlot_ne_bag0 hslot (hin ▸ (isBagPos_iff.mp hbagPos).1)
    · cases hfound

/-- **The plan can be carried out.** -/
theorem takes_fill (hold : ∀ p a, v.stackAt T p = some a → a.guid < v.nextGuid) (entry n : ℕ) :
    Takes T v entry ((fill (v.roomsFor T entry) n).map part) := by
  have hroom : ∀ c ∈ (fill (v.roomsFor T entry) n).map part, ∃ r, (c.pos, r) ∈ v.roomsFor T entry ∧
      c.count.toNat ≤ r := by
    intro c hc
    obtain ⟨d, hd, rfl⟩ := List.mem_map.mp hc
    obtain ⟨r, hr, hle⟩ := Lib.fill_le hd
    exact ⟨r, hr, (Nat.mod_le d.2 256).trans hle⟩
  have hspace : ∀ c ∈ (fill (v.roomsFor T entry) n).map part, c.count.toNat ≤ (T entry).stackable ∧
      ∀ a, v.stackAt T c.pos = some a → a.entry = entry := by
    intro c hc
    obtain ⟨r, hr, hle⟩ := hroom c hc
    obtain ⟨-, -, merge, hspace⟩ := mem_roomsFor hr
    obtain ⟨hmax, -, hsame⟩ := space_room hspace
    rw [seen_sought entry (hold c.pos)] at hsame
    exact ⟨hle.trans hmax, fun a ha => (hsame a ha).1⟩
  constructor
  · rw [map_part_pos]
    exact (nodup_storeRooms v _ _ _).sublist (Lib.prefix_of_fill _ n).sublist
  · intro c hc
    obtain ⟨r, hr, -⟩ := hroom c hc
    exact (mem_roomsFor hr).1
  · intro c hc
    obtain ⟨r, hr, -⟩ := hroom c hc
    exact (mem_roomsFor hr).2.1
  · intro c hc
    exact (hspace c hc).1
  · intro c hc
    exact (hspace c hc).2

/-! ## Delivery -/

/-- When all of so many new items are stored, or mailed. -/
structure Deliverable (T : Templates) (v : Player) (entry count : ℕ) : Prop where
  /-- Where there is space for all, no place takes 256 or more. -/
  stored : v.HasSpaceFor T entry count → ∀ before c after, v.roomsFor T entry = before ++ c :: after →
    capacity before < count → min c.2 (count - capacity before) < 256
  /-- Where there is not, they are one stack at most. -/
  mailed : ¬ v.HasSpaceFor T entry count → count ≤ (T entry).getMaxStackSize

/-- How many items of an entry are mailed. -/
def mailedOf (entry : ℕ) (mailed : Option Item) : ℕ :=
  Lib.held Stack.entry Stack.count entry (mailed.map Item.stack)

theorem sum_part_eq_iff {rooms : List (Pos × ℕ)} (h : n ≤ capacity rooms) :
    (((fill rooms n).map part).map fun c => c.count.toNat).sum = n ↔
      ∀ before c after, rooms = before ++ c :: after → capacity before < n →
        min c.2 (n - capacity before) < 256 := by
  have hfull : capacity (fill rooms n) = n := by
    rw [Lib.sum_fill, min_eq_right h]
  rw [← Lib.forall_fill_iff (fun m => m < 256), map_part_count]
  constructor
  · intro hsum
    exact lt_of_sum_mod (hsum.trans hfull.symm)
  · intro hsmall
    exact (sum_mod_of_lt hsmall).trans hfull

theorem sum_part_le (rooms : List (Pos × ℕ)) (n : ℕ) :
    (((fill rooms n).map part).map fun c => c.count.toNat).sum ≤ n := by
  rw [map_part_count]
  apply (sum_mod_le _).trans
  rw [Lib.sum_fill]
  exact min_le_right ..

section Congr

variable (h : v'.shellAt T = v.shellAt T) (hguid : v'.guid = v.guid) (hnext : v'.nextGuid = v.nextGuid)

include h hguid hnext

theorem roomsFor_congr (entry : ℕ) : v'.roomsFor T entry = v.roomsFor T entry := by
  have hsought : v'.sought T entry none = v.sought T entry none := by
    unfold sought createItem
    rw [hguid, hnext]
  rw [roomsFor_eq, roomsFor_eq, hsought, storeVisits_congr h]

theorem hasSpaceFor_congr (entry count : ℕ) :
    v'.HasSpaceFor T entry count ↔ v.HasSpaceFor T entry count := by
  unfold HasSpaceFor
  rw [canTakeMoreSimilar_congr h, roomsFor_congr h hguid hnext]

theorem deliverable_congr (entry count : ℕ) :
    v'.Deliverable T entry count ↔ v.Deliverable T entry count := by
  have hspace := hasSpaceFor_congr h hguid hnext entry count
  have hrooms := roomsFor_congr h hguid hnext entry
  constructor
  · intro hd
    refine ⟨fun hs => ?_, fun hs => hd.mailed (mt hspace.mp hs)⟩
    rw [← hrooms]
    exact hd.stored (hspace.mpr hs)
  · intro hd
    refine ⟨fun hs => ?_, fun hs => hd.mailed (mt hspace.mpr hs)⟩
    rw [hrooms]
    exact hd.stored (hspace.mp hs)

end Congr

/-! ## What is exchanged -/

variable {item1 item2 : ℕ} {mailed : Option Item}

theorem Shrinks.old {S : Pos → Bool} (h : Shrinks T S entry v v')
    (hold : ∀ p a, v.stackAt T p = some a → a.guid < v.nextGuid) (p : Pos) (a : Stack)
    (ha : v'.stackAt T p = some a) : a.guid < v'.nextGuid := by
  obtain ⟨item, hitem, rfl⟩ := Option.map_eq_some_iff.mp ha
  obtain ⟨shell, hshell, hguid, -⟩ := (h.places p).origin (shellAt_eq_some hitem)
  obtain ⟨whole, hwhole, rfl⟩ := exists_of_shellAt hshell
  have hlt := hold p whole.stack (stackAt_eq_some hwhole)
  have hsame : whole.guid = item.guid := hguid
  rw [h.nextGuid_eq]
  show item.guid < v.nextGuid
  rw [← hsame]
  exact hlt

/-- **What `SwapItems` does**: all that is counted is destroyed, and as many of the other entry are
stored or mailed, where these can be delivered. -/
theorem swapItems_outcome (R : Rules) (item1 item2 : ℕ)
    (hold : ∀ p a, v.stackAt T p = some a → a.guid < v.nextGuid)
    (hlt : v.getItemCountOf T item1 true < 2 ^ 32) :
    ∃ d n, Spends T item1 (v.getItemCountOf T item1 true) true v d ∧
      Gains T item2 n d (v.swapItems T R item1 item2).1 ∧
      n + mailedOf item2 (v.swapItems T R item1 item2).2 ≤ v.getItemCountOf T item1 true ∧
      (n + mailedOf item2 (v.swapItems T R item1 item2).2 = v.getItemCountOf T item1 true ↔
        d.Deliverable T item2 (v.getItemCountOf T item1 true)) := by
  unfold swapItems
  generalize hcount : v.getItemCountOf T item1 true = count at hlt ⊢
  rcases Nat.eq_zero_or_pos count with hzero | hpos
  · rw [hzero, if_neg (not_not.mpr rfl)]
    refine ⟨v, 0, ⟨by simp, .refl v⟩, .of_items rfl, le_rfl, iff_of_true rfl ⟨?_, ?_⟩⟩
    · intro _ before c after _ hlt
      exact absurd hlt (Nat.not_lt_zero _)
    · intro _
      exact Nat.zero_le _
  · rw [if_pos hpos.ne']
    have hspends := destroyItemCount_spends (T := T) R v item1 count true
    generalize v.destroyItemCount T R item1 count false true = d at hspends ⊢
    refine ⟨d, ?_⟩
    rcases canStoreNewItem_cases (T := T) d item2 hpos hlt with ⟨hspace, hok, hdest⟩ | ⟨hno, hres⟩
    · rw [if_pos hok, hdest]
      refine ⟨_, hspends, storeNewItem_gains (takes_fill (hspends.shrinks.old hold) item2 count),
        sum_part_le _ _, ?_⟩
      show _ + 0 = count ↔ _
      rw [Nat.add_zero, sum_part_eq_iff hspace.2]
      exact ⟨fun h => ⟨fun _ => h, fun hno => absurd hspace hno⟩, fun h => h.stored hspace⟩
    · rw [if_neg hres]
      refine ⟨0, hspends, .of_items rfl, ?_⟩
      have hmailed : mailedOf item2 (some (d.createItem T item2 count)) =
          min count (T item2).getMaxStackSize := if_pos rfl
      rw [Nat.zero_add, hmailed, min_eq_left_iff]
      refine ⟨min_le_left .., ?_⟩
      exact ⟨fun h => ⟨fun hspace => absurd hspace hno, fun _ => h⟩, fun h => h.mailed hno⟩

/-- The exchange keeps the number: no item of the first entry is left, and there are as many more of the
second, in the storage or in the mail. -/
structure Exchanged (T : Templates) (v : Player) (item1 item2 : ℕ) (s : Player × Option Item) :
    Prop where
  gone : ∀ p item, s.1.getItemByPos T p = some item → item.entry ≠ item1
  kept : totalOf T s.1 item2 + mailedOf item2 s.2 = totalOf T v item2 + totalOf T v item1

/-- When an exchange keeps the number, in terms of the storage before. -/
structure Exchangeable (T : Templates) (v : Player) (item1 item2 : ℕ) : Prop where
  /-- No bag of the first entry lies in a slot for bags of the bank: it would not be counted. -/
  noBankBag : v.NoBankBagOf T item1
  /-- No bag of the first entry holds items of the second, which would be destroyed with it. -/
  noContents : ∀ p item, v.InBagOf T item1 p → v.getItemByPos T p = some item → item.entry ≠ item2
  /-- The items of the second entry can be delivered where those of the first are away. -/
  deliverable : (v.without item1).Deliverable T item2 (v.getItemCountOf T item1 true)

section Iff

variable {d : Player} {s : Player × Option Item}
  (hpositive : ∀ p item, v.getItemByPos T p = some item → 0 < item.count)
  (hspends : Spends T item1 (v.getItemCountOf T item1 true) true v d) (hgains : Gains T item2 n d s.1)
  (hne : item1 ≠ item2)

include hpositive hspends hgains hne

theorem exchange_gone (hbank : v.NoBankBagOf T item1) (p : Pos) (item : Item)
    (hat : s.1.getItemByPos T p = some item) : item.entry ≠ item1 := by
  rcases hgains.origin p item.stack (stackAt_eq_some hat) with hentry | hold
  · intro heq
    exact hne (heq.symm.trans hentry)
  · obtain ⟨whole, hwhole, hstack⟩ := Option.map_eq_some_iff.mp hold
    have hentry : whole.entry = item.entry := congrArg Stack.entry hstack
    have hother : whole.shell.entry ≠ item1 :=
      hspends.entry_ne hpositive hbank (shellAt_eq_some hwhole)
    exact fun heq => hother (hentry.trans heq)

/-- Where no bag lies in the way of the bank, the number is kept where no items of the second entry are
lost and all are delivered. -/
theorem exchanged_iff (hbank : v.NoBankBagOf T item1)
    (hle : n + mailedOf item2 s.2 ≤ v.getItemCountOf T item1 true) :
    Exchanged T v item1 item2 s ↔
      (∀ p item, v.InBagOf T item1 p → v.getItemByPos T p = some item → item.entry ≠ item2) ∧
        n + mailedOf item2 s.2 = v.getItemCountOf T item1 true := by
  have hleft : totalOf T d item2 = totalOf T (v.without item1) item2 :=
    totalOf_congr (hspends.shellAt_eq hpositive hbank) item2
  have hlost := totalOf_without_le (T := T) hne.symm v
  have hstored := hgains.total item2
  rw [if_pos rfl, hleft] at hstored
  have hcontents : totalOf T (v.without item1) item2 = totalOf T v item2 ↔
      ∀ p item, v.InBagOf T item1 p → v.getItemByPos T p = some item → item.entry ≠ item2 := by
    rw [totalOf_without_eq_iff hne.symm]
    constructor
    · intro h p item hin hat hentry
      have hcount := countAt_of_item hat hentry
      rw [h p hin] at hcount
      exact absurd hcount.symm (hpositive p item hat).ne'
    · intro h p hin
      unfold countAt
      cases hat : v.getItemByPos T p with
      | none => rfl
      | some item => exact if_neg (h p item hin hat)
  have hkept : totalOf T s.1 item2 + mailedOf item2 s.2 = totalOf T v item2 + totalOf T v item1 ↔
      totalOf T (v.without item1) item2 = totalOf T v item2 ∧
        n + mailedOf item2 s.2 = v.getItemCountOf T item1 true := by
    rw [hstored, totalOf_eq_getItemCountOf hbank]
    generalize totalOf T (v.without item1) item2 = left at *
    generalize totalOf T v item2 = all at *
    generalize v.getItemCountOf T item1 true = count at *
    omega
  rw [← hcontents, ← hkept]
  exact ⟨fun h => h.kept, fun h => ⟨exchange_gone hpositive hspends hgains hne hbank, h⟩⟩

omit hpositive hne in
/-- A bag in a slot for bags of the bank stays there. -/
theorem bankBag_stays (hgone : ∀ p item, s.1.getItemByPos T p = some item → item.entry ≠ item1) :
    v.NoBankBagOf T item1 := by
  intro slot item hslot hat hentry
  have hshell : d.shellAt T (inventorySlotBag0, slot) = some item.shell := by
    cases hspends.shrinks.places (inventorySlotBag0, slot) with
    | same heq => exact heq.trans (shellAt_eq_some hat)
    | spent _ hplace =>
      rw [not_isSearched_bankBag hslot] at hplace
      cases hplace
    | lost _ hbag =>
      have hno : ¬ isInventoryBagSlot inventorySlotBag0 = true := by decide
      exact absurd hbag hno
  obtain ⟨whole, hwhole, hsame⟩ := exists_of_shellAt hshell
  obtain ⟨b, hb, hkept⟩ := hgains.kept _ _ (stackAt_eq_some hwhole)
  obtain ⟨left, hleft, rfl⟩ := Option.map_eq_some_iff.mp hb
  have hentry' : whole.shell.entry = item.shell.entry := congrArg Item.entry hsame
  exact hgone _ left hleft (hkept.trans (hentry'.trans hentry))

end Iff

theorem getItemCountOf_lt (hv : v.WellFormed T) (hstack : (T item1).stackable < 65536) :
    v.getItemCountOf T item1 true < 2 ^ 32 := by
  have hone : ∀ p ∈ searched true, v.countAt T item1 p ≤ 65535 := by
    intro p _
    unfold countAt
    cases hat : v.getItemByPos T p with
    | none => exact Nat.zero_le _
    | some item =>
      have hle := hv.count_le hat
      by_cases hentry : item.entry = item1
      · simp only [if_pos hentry]
        rw [hentry] at hle
        omega
      · simp only [if_neg hentry]
        exact Nat.zero_le _
  have hcard : (searched true).card ≤ 65536 := by
    apply (Finset.card_le_univ _).trans_eq
    rw [Fintype.card_prod, Fintype.card_fin]
  have hsum := Finset.sum_le_card_nsmul _ _ _ hone
  rw [Nat.nsmul_eq_mul, ← getItemCountOf_eq] at hsum
  generalize (searched true).card = places at hcard hsum
  omega

/-- **When `SwapItems` keeps the number of items.** -/
theorem swapItems_exchanged_iff (R : Rules) (hv : v.WellFormed T)
    (hpositive : ∀ p item, v.getItemByPos T p = some item → 0 < item.count)
    (hstack : (T item1).stackable < 65536) (hne : item1 ≠ item2) :
    Exchanged T v item1 item2 (v.swapItems T R item1 item2) ↔ Exchangeable T v item1 item2 := by
  obtain ⟨d, n, hspends, hgains, hle, hdelivered⟩ :=
    swapItems_outcome R item1 item2 hv.placed.old (getItemCountOf_lt hv hstack)
  have hsame : v.NoBankBagOf T item1 →
      (d.Deliverable T item2 (v.getItemCountOf T item1 true) ↔
        (v.without item1).Deliverable T item2 (v.getItemCountOf T item1 true)) := fun hbank =>
    deliverable_congr (hspends.shellAt_eq hpositive hbank) hspends.shrinks.guid_eq
      hspends.shrinks.nextGuid_eq item2 _
  constructor
  · intro h
    have hbank := bankBag_stays hspends hgains h.gone
    obtain ⟨hcontents, hall⟩ := (exchanged_iff hpositive hspends hgains hne hbank hle).mp h
    exact ⟨hbank, hcontents, (hsame hbank).mp (hdelivered.mp hall)⟩
  · intro h
    apply (exchanged_iff hpositive hspends hgains hne h.noBankBag hle).mpr
    exact ⟨h.noContents, hdelivered.mpr ((hsame h.noBankBag).mpr h.deliverable)⟩

/-! ## Coins for medals -/

/-- Coins and tokens that stack, and medals, of which one may be carried. -/
def coinsAndMedals : Templates := fun entry =>
  if entry = 1 ∨ entry = 3 then ⟨7, 0, .nonEquip, .noBind, 0, 20, 0, 0, false, false⟩
  else ⟨7, 0, .nonEquip, .noBind, 0, 1, 1, 0, false, false⟩

/-- Some coins in the backpack, and nothing else. -/
def coinHolder (count : ℕ) : Player where
  guid := 1
  isAlive := true
  items slot := if slot = 23 then some ⟨100, 1, count, 1, false, false, [], fun _ => none⟩ else none
  bankBagSlots := 0
  nextGuid := 101

theorem coinHolder_item {count : ℕ} (hat : (coinHolder count).getItemByPos coinsAndMedals p = some item) :
    p = (inventorySlotBag0, 23) ∧ item = ⟨100, 1, count, 1, false, false, [], fun _ => none⟩ :=
  lone_item rfl rfl hat

theorem coinHolder_wellFormed {count : ℕ} (h : count ≤ 20) :
    (coinHolder count).WellFormed coinsAndMedals :=
  lone_wellFormed rfl rfl h (show 100 < 101 by decide) (by decide)

theorem coinHolder_positive {count : ℕ} (h : 0 < count) (p : Pos) (item : Item)
    (hat : (coinHolder count).getItemByPos coinsAndMedals p = some item) : 0 < item.count := by
  rw [(coinHolder_item hat).2]
  exact h

theorem coinHolder_noBankBag (count : ℕ) : (coinHolder count).NoBankBagOf coinsAndMedals 1 := by
  intro slot item hslot hat
  have h23 : slot = 23 := congrArg Prod.snd (coinHolder_item hat).1
  rw [h23] at hslot
  cases hslot

/-- A stack of coins is exchanged for tokens. -/
theorem coins_exchanged : Exchanged coinsAndMedals (coinHolder 7) 1 3
    ((coinHolder 7).swapItems coinsAndMedals freeRules 1 3) := by
  refine (swapItems_exchanged_iff freeRules (coinHolder_wellFormed (by decide))
    (coinHolder_positive (by decide)) (by decide) (by decide)).mpr ⟨coinHolder_noBankBag 7, ?_, ?_, ?_⟩
  · intro p item hin hat
    exact absurd (congrArg Prod.fst (coinHolder_item hat).1) hin.1
  · intro _
    rw [← Lib.forall_fill_iff (fun m => m < 256)]
    decide +kernel
  · intro hno
    exact absurd ⟨by decide +kernel, by decide +kernel⟩ hno

/-- Of two coins that are exchanged for medals, one is lost: two medals may not be carried, and one item
is mailed, which is no higher than a stack. -/
theorem medal_lost :
    ¬ ∀ (T : Templates) (R : Rules) (v : Player) (item1 item2 : ℕ), v.WellFormed T →
      (∀ p item, v.getItemByPos T p = some item → 0 < item.count) → (T item1).stackable < 65536 →
      item1 ≠ item2 → Exchanged T v item1 item2 (v.swapItems T R item1 item2) := by
  intro h
  have hv := coinHolder_wellFormed (show 2 ≤ 20 by decide)
  have hpositive := coinHolder_positive (show 0 < 2 by decide)
  have hexchanged := h coinsAndMedals freeRules (coinHolder 2) 1 2 hv hpositive (by decide) (by decide)
  obtain ⟨d, n, hspends, hgains, hle, hdelivered⟩ :=
    swapItems_outcome freeRules 1 2 hv.placed.old (by decide +kernel)
  have hbank := coinHolder_noBankBag 2
  obtain ⟨-, hall⟩ := (exchanged_iff hpositive hspends hgains (by decide) hbank hle).mp hexchanged
  have hdeliverable := (deliverable_congr (hspends.shellAt_eq hpositive hbank) hspends.shrinks.guid_eq
    hspends.shrinks.nextGuid_eq 2 _).mp (hdelivered.mp hall)
  have hone := hdeliverable.mailed fun hspace => absurd hspace.1 (by decide +kernel)
  exact absurd hone (by decide +kernel)

end Player

end Sunstrider.Inventory
