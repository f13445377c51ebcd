import Sunstrider.Guilds.Bank
import Sunstrider.Lib.Stacks

/-!
# Plans of the guild bank

`CanStore` of a tab is the greedy plan of the library: `rooms` lists the slot that is named, the
stacks of the same entry and the free slots, and `bankCanStore_plan` says that the positions it finds
are those of `allot`, with amounts cut down to 8 bits. `canStore_plan` is what a move relies on, of a
tab and of an inventory.
-/

namespace Sunstrider.Guilds

open Sunstrider.Items (Item ItemTemplates)
open Sunstrider.Lib (Fits allot sum_allot mem_allot allot_append allot_lt_iff fits_allot
  allot_places_sublist)

/-- The position of a part of a plan. -/
def ItemPosCount.ofPlan (p : Location × ℕ) : ItemPosCount := .new p.1 p.2

/-- A part of a plan is stored as far as its amount fits into 8 bits. -/
theorem ItemPosCount.ofPlan_count (p : Location × ℕ) :
    (ItemPosCount.ofPlan p).count.toNat = p.2 % 256 := UInt8.toNat_ofNat'

/-- **What is assumed of `Player::CanStoreItem`**: the positions it finds for a stack are different
and have room for it, and the counts are those of the stack. A position that is swapped is empty. -/
def BankEnv.PlacesExactly (E : BankEnv) : Prop :=
  ∀ (inventory : InventoryPos → Option Item) (pos : InventoryPos) (item : Item) (swap : Bool)
    (vec : List (InventoryPos × UInt8)),
    (∀ p a, inventory p = some a → 0 < a.count ∧ a.count ≤ E.templates a.entry) →
    (∀ p a, inventory p = some a → a.guid ≠ item.guid) →
    0 < item.count → item.count ≤ E.templates item.entry →
    E.canStoreItem inventory pos item swap = some vec →
    Fits Item.entry Item.count E.templates item.entry
      (if swap then Function.update inventory pos none else inventory)
      (vec.map fun p => (p.1, p.2.toNat)) ∧
    (∀ p ∈ vec, 0 < p.2.toNat) ∧ (vec.map fun p => p.2.toNat).sum = item.count

namespace BankWorld

variable {E : BankEnv} {w : BankWorld}

/-! ## Rooms -/

/-- How many more items of a kind a slot takes. -/
def room (templates : ItemTemplates) (item : Item) : Option Item → ℕ
  | none => templates item.entry
  | some dest =>
    if dest.entry = item.entry then templates item.entry - dest.count else 0

/-- The rooms in slots of a tab that are, or are not, taken by other items. -/
def roomsIn (E : BankEnv) (w : BankWorld) (tab : Fin guildBankMaxTabs) (item : Item)
    (skipSlotId : Option (Fin guildBankMaxSlots)) (merge : Bool)
    (slots : List (Fin guildBankMaxSlots)) : List (Location × ℕ) :=
  (slots.filter fun slotId => some slotId ≠ skipSlotId &&
      (w.itemDest tab item slotId).isSome = merge).map
    fun slotId => (.inl (tab, slotId), room E.templates item (w.itemDest tab item slotId))

/-- The rooms that the search of a tab goes through. -/
def searchedRooms (E : BankEnv) (w : BankWorld) (tab : Fin guildBankMaxTabs)
    (slot : Option (Fin guildBankMaxSlots)) (item : Item) : List (Location × ℕ) :=
  (if 1 < E.templates item.entry then
      w.roomsIn E tab item slot true (List.finRange guildBankMaxSlots) else []) ++
    w.roomsIn E tab item slot false (List.finRange guildBankMaxSlots)

/-- The room of the slot that is named. -/
def namedRooms (E : BankEnv) (w : BankWorld) (tab : Fin guildBankMaxTabs)
    (slot : Option (Fin guildBankMaxSlots)) (item : Item) : List (Location × ℕ) :=
  slot.toList.map fun slotId =>
    (.inl (tab, slotId), room E.templates item (w.itemDest tab item slotId))

/-- The rooms of a tab for an item, in the order in which it is stored: the slot that is named, the
stacks of the same entry, and the free slots. -/
def rooms (E : BankEnv) (w : BankWorld) (tab : Fin guildBankMaxTabs)
    (slot : Option (Fin guildBankMaxSlots)) (item : Item) : List (Location × ℕ) :=
  w.namedRooms E tab slot item ++ w.searchedRooms E tab slot item

/-! ## Planning -/

variable {item : Item} {r : Reservation}

/-- A slot that is not planned with yet takes what there is room for. -/
theorem reserveSpace_eq {pos : Location} {dest : Option Item} (hmax : 0 < E.templates item.entry)
    (hnew : ∀ p ∈ r.vec, p.pos ≠ pos) :
    reserveSpace E pos item dest r =
      if room E.templates item dest = 0 then none
      else some ⟨r.vec ++ [.ofPlan (pos, min (room E.templates item dest) r.count)],
        r.count - room E.templates item dest⟩ := by
  have hcontained : r.vec.any (fun p => p.pos = pos) = false := by
    rw [List.any_eq_false]
    intro p hp
    simpa using hnew p hp
  have hsub : ∀ n, r.count - min n r.count = r.count - n := fun n => by omega
  unfold reserveSpace room
  simp only [hcontained, Bool.false_eq_true, if_false, hsub]
  cases dest with
  | none =>
    rw [if_neg hmax.ne']
    rfl
  | some d =>
    by_cases hentry : d.entry = item.entry
    · by_cases hfull : E.templates item.entry ≤ d.count
      · simp [hentry, hfull]
      · have hroom : E.templates item.entry - d.count ≠ 0 := by omega
        simp [hentry, hfull, hroom, ItemPosCount.ofPlan]
    · simp [hentry]

variable {tab : Fin guildBankMaxTabs} {skip : Option (Fin guildBankMaxSlots)} {merge : Bool}

theorem canStoreItemInTab_round (hmax : 0 < E.templates item.entry)
    (slots : List (Fin guildBankMaxSlots)) (hslots : slots.Nodup) (r : Reservation)
    (hnew : ∀ p ∈ r.vec, ∀ slotId ∈ slots, some slotId ≠ skip →
      (w.itemDest tab item slotId).isSome = merge → p.pos ≠ .inl (tab, slotId)) :
    slots.foldl (fun r slotId =>
      if r.count = 0 || some slotId = skip then r
      else if (w.itemDest tab item slotId).isSome ≠ merge then r
      else (reserveSpace E (.inl (tab, slotId)) item (w.itemDest tab item slotId) r).getD r) r =
      ⟨r.vec ++ (allot (w.roomsIn E tab item skip merge slots) r.count).map .ofPlan,
        r.count - ((w.roomsIn E tab item skip merge slots).map Prod.snd).sum⟩ := by
  induction slots generalizing r with
  | nil => simp [roomsIn]
  | cons slotId slots ih =>
    rw [List.nodup_cons] at hslots
    have hrest : ∀ p ∈ r.vec, ∀ slotId ∈ slots, some slotId ≠ skip →
        (w.itemDest tab item slotId).isSome = merge → p.pos ≠ .inl (tab, slotId) :=
      fun p hp slotId hslot => hnew p hp slotId (List.mem_cons_of_mem _ hslot)
    rw [List.foldl_cons]
    by_cases htaken : some slotId ≠ skip ∧ (w.itemDest tab item slotId).isSome = merge
    · have hrooms : w.roomsIn E tab item skip merge (slotId :: slots) =
          (.inl (tab, slotId), room E.templates item (w.itemDest tab item slotId)) ::
            w.roomsIn E tab item skip merge slots := by
        unfold roomsIn
        rw [List.filter_cons_of_pos (by simpa using htaken), List.map_cons]
      have hnew' := fun p hp => hnew p hp slotId List.mem_cons_self htaken.1 htaken.2
      rw [hrooms, List.map_cons, List.sum_cons]
      by_cases hnone : r.count = 0 ∨ room E.templates item (w.itemDest tab item slotId) = 0
      · rw [Lib.allot_cons_none _ _ hnone]
        -- nothing is left, or the slot has no room
        rcases hnone with hzero | hroom
        · rw [if_pos (by simp [hzero]), ih hslots.2 r hrest, hzero, Nat.zero_sub, Nat.zero_sub]
        · rw [reserveSpace_eq hmax hnew', if_pos hroom, Option.getD_none, ite_self, ite_self,
            ih hslots.2 r hrest, hroom, Nat.zero_add]
      · rw [Lib.allot_cons_some _ _ hnone, if_neg (by simpa [htaken.1] using fun h => hnone (.inl h)),
          if_neg (by simp [htaken.2]), reserveSpace_eq hmax hnew', if_neg fun h => hnone (.inr h),
          Option.getD_some, ih hslots.2 _ ?_, List.map_cons, Nat.sub_sub, List.append_assoc,
          List.singleton_append]
        intro p hp slot hslot
        rcases List.mem_append.mp hp with hp | hp
        · exact hrest p hp slot hslot
        · rw [List.mem_singleton.mp hp]
          rintro - - heq
          cases heq
          exact hslots.1 hslot
    · have hrooms : w.roomsIn E tab item skip merge (slotId :: slots) =
          w.roomsIn E tab item skip merge slots := by
        unfold roomsIn
        rw [List.filter_cons_of_neg (by simpa using htaken)]
      rw [hrooms, ← ih hslots.2 r hrest]
      congr 1
      by_cases hskip : some slotId = skip
      · rw [if_pos (by simp [hskip])]
      · rw [if_pos (c := (w.itemDest tab item slotId).isSome ≠ merge) fun h => htaken ⟨hskip, h⟩,
          ite_self]

theorem canStoreItemInTab_eq (hmax : 0 < E.templates item.entry)
    (hnew : ∀ p ∈ r.vec, ∀ slotId, some slotId ≠ skip →
      (w.itemDest tab item slotId).isSome = merge → p.pos ≠ .inl (tab, slotId)) :
    w.canStoreItemInTab E tab item skip merge r =
      ⟨r.vec ++ (allot (w.roomsIn E tab item skip merge (List.finRange _)) r.count).map .ofPlan,
        r.count - ((w.roomsIn E tab item skip merge (List.finRange _)).map Prod.snd).sum⟩ :=
  canStoreItemInTab_round hmax _ (List.nodup_finRange _) r fun p hp slotId _ => hnew p hp slotId

theorem mem_roomsIn {slots : List (Fin guildBankMaxSlots)} {q : Location × ℕ}
    (h : q ∈ w.roomsIn E tab item skip merge slots) :
    ∃ slotId, q = (.inl (tab, slotId), room E.templates item (w.itemDest tab item slotId)) ∧
      some slotId ≠ skip ∧ (w.itemDest tab item slotId).isSome = merge := by
  obtain ⟨slotId, hslot, rfl⟩ := List.mem_map.mp h
  exact ⟨slotId, rfl, by simpa using (List.mem_filter.mp hslot).2⟩

variable {slot : Option (Fin guildBankMaxSlots)} {vec : List ItemPosCount}

theorem searchTab_plan (hmax : 0 < E.templates item.entry)
    (hnew : ∀ p ∈ r.vec, ∀ slotId, some slotId ≠ slot → p.pos ≠ .inl (tab, slotId))
    (h : w.searchTab E tab slot item r = some vec) :
    vec = r.vec ++ (allot (w.searchedRooms E tab slot item) r.count).map .ofPlan ∧
      r.count ≤ ((w.searchedRooms E tab slot item).map Prod.snd).sum := by
  unfold searchedRooms
  generalize hmerge : (if 1 < E.templates item.entry then
    w.roomsIn E tab item slot true (List.finRange guildBankMaxSlots) else []) = merge
  have hmerged : (if 1 < E.templates item.entry then w.canStoreItemInTab E tab item slot true r
      else r) = ⟨r.vec ++ (allot merge r.count).map .ofPlan,
        r.count - (merge.map Prod.snd).sum⟩ := by
    rw [← hmerge]
    split
    · exact canStoreItemInTab_eq hmax fun p hp slotId hne _ => hnew p hp slotId hne
    · simp
  have hmem : ∀ q ∈ merge, ∃ slotId, q.1 = .inl (tab, slotId) ∧
      (w.itemDest tab item slotId).isSome = true := by
    intro q hq
    rw [← hmerge] at hq
    split at hq
    · obtain ⟨slotId, rfl, -, hsome⟩ := mem_roomsIn hq
      exact ⟨slotId, rfl, hsome⟩
    · cases hq
  unfold searchTab at h
  rw [hmerged] at h
  dsimp only at h
  rw [allot_append, List.map_append, List.map_append, List.sum_append]
  split at h
  · next hzero =>
    cases h
    rw [hzero, Lib.allot_zero, List.map_nil, List.append_nil]
    exact ⟨rfl, by omega⟩
  · -- the free slots are none of the stacks
    rw [canStoreItemInTab_eq hmax] at h
    · dsimp only at h
      split at h
      · next hzero =>
        cases h
        rw [List.append_assoc]
        exact ⟨rfl, by omega⟩
      · cases h
    · intro p hp slotId hne hnone
      rcases List.mem_append.mp hp with hp | hp
      · exact hnew p hp slotId hne
      · obtain ⟨q, hq, rfl⟩ := List.mem_map.mp hp
        obtain ⟨-, r', hr', -⟩ := mem_allot hq
        obtain ⟨slotId', hplace, hsome⟩ := hmem _ hr'
        intro heq
        cases hplace.symm.trans heq
        rw [hnone] at hsome
        cases hsome

/-- **`CanStore` of a tab finds the greedy plan.** -/
theorem bankCanStore_plan (hmax : 0 < E.templates item.entry) (hcount : 0 < item.count)
    (h : w.bankCanStore E tab slot item false = some vec) :
    tab.val < w.guild.getPurchasedTabsSize ∧
      vec = (allot (w.rooms E tab slot item) item.count).map .ofPlan ∧
      item.count ≤ ((w.rooms E tab slot item).map Prod.snd).sum := by
  unfold bankCanStore at h
  split at h
  · cases h
  · split at h
    · cases h
    · next htab =>
      refine ⟨not_le.mp htab, ?_⟩
      unfold rooms
      rw [allot_append, List.map_append, List.map_append, List.sum_append]
      cases slot with
      | none =>
        obtain ⟨hvec, hle⟩ := searchTab_plan hmax (fun p hp => absurd hp List.not_mem_nil) h
        exact ⟨hvec, hle.trans (Nat.le_add_left _ _)⟩
      | some slotId =>
        dsimp only at h
        rw [if_neg Bool.false_ne_true, reserveSpace_eq hmax (fun p hp => absurd hp List.not_mem_nil)] at h
        unfold namedRooms
        generalize hroom : room E.templates item (w.itemDest tab item slotId) = n at h
        by_cases hfull : n = 0
        · rw [if_pos hfull] at h
          cases h
        · rw [if_neg hfull] at h
          have hnamed : allot [((.inl (tab, slotId) : Location), n)] item.count =
              [(.inl (tab, slotId), min n item.count)] :=
            Lib.allot_cons_some _ _ fun hc => hc.elim hcount.ne' hfull
          simp only [Option.toList_some, List.map_singleton, List.sum_singleton, hroom, hnamed]
          dsimp only at h
          split at h
          · next hzero =>
            cases h
            rw [hzero, Lib.allot_zero, List.map_nil, List.append_nil]
            exact ⟨rfl, by omega⟩
          · obtain ⟨hvec, hle⟩ := searchTab_plan hmax (fun p hp slotId' hne heq => by
              rw [List.nil_append, List.mem_singleton] at hp
              subst hp
              cases heq
              exact hne rfl) h
            exact ⟨hvec, by dsimp only at hle; omega⟩

/-- An item that is swapped goes into the slot that is named, as a whole. -/
theorem bankCanStore_swap {slotId : Fin guildBankMaxSlots} (hcount : 0 < item.count)
    (hmax : item.count ≤ E.templates item.entry)
    (h : w.bankCanStore E tab (some slotId) item true = some vec) :
    tab.val < w.guild.getPurchasedTabsSize ∧ vec = [.ofPlan (.inl (tab, slotId), item.count)] := by
  have hpos : 0 < E.templates item.entry := hcount.trans_le hmax
  unfold bankCanStore at h
  split at h
  · cases h
  · split at h
    · cases h
    · next htab =>
      dsimp only at h
      rw [if_pos rfl, reserveSpace_eq hpos (fun p hp => absurd hp List.not_mem_nil)] at h
      have hroom : room E.templates item none = E.templates item.entry := rfl
      have hzero : item.count - E.templates item.entry = 0 := by omega
      rw [hroom, if_neg hpos.ne', min_eq_right hmax] at h
      dsimp only at h
      rw [if_pos hzero] at h
      cases h
      exact ⟨not_le.mp htab, rfl⟩

/-- An item that is stored into its own slot is stored as if it were swapped. -/
theorem bankCanStore_own {slotId : Fin guildBankMaxSlots} (h : w.itemDest tab item slotId = none) :
    w.bankCanStore E tab (some slotId) item false = w.bankCanStore E tab (some slotId) item true := by
  unfold bankCanStore
  simp only [h, ite_self]

/-! ## Plans that fit -/

theorem roomsIn_places_nodup (tab : Fin guildBankMaxTabs) (item : Item)
    (skip : Option (Fin guildBankMaxSlots)) (merge : Bool) :
    ((w.roomsIn E tab item skip merge (List.finRange _)).map Prod.fst).Nodup := by
  unfold roomsIn
  rw [List.map_map]
  refine ((List.nodup_finRange _).filter _).map fun a b hab => ?_
  cases hab
  rfl

/-- Every room is of a slot of the tab, and no slot has two. -/
theorem mem_rooms {q : Location × ℕ} (h : q ∈ w.rooms E tab slot item) :
    ∃ slotId, q = (.inl (tab, slotId), room E.templates item (w.itemDest tab item slotId)) := by
  rcases List.mem_append.mp h with h | h
  · obtain ⟨slotId, -, rfl⟩ := List.mem_map.mp h
    exact ⟨slotId, rfl⟩
  · rcases List.mem_append.mp h with h | h
    · split at h
      · obtain ⟨slotId, rfl, -⟩ := mem_roomsIn h
        exact ⟨slotId, rfl⟩
      · cases h
    · obtain ⟨slotId, rfl, -⟩ := mem_roomsIn h
      exact ⟨slotId, rfl⟩

theorem rooms_places_nodup (tab : Fin guildBankMaxTabs) (slot : Option (Fin guildBankMaxSlots))
    (item : Item) : ((w.rooms E tab slot item).map Prod.fst).Nodup := by
  have hmerge : ∀ l, l ∈ (if 1 < E.templates item.entry then
      w.roomsIn E tab item slot true (List.finRange guildBankMaxSlots) else []).map Prod.fst →
      ∃ slotId, l = .inl (tab, slotId) ∧ some slotId ≠ slot ∧
        (w.itemDest tab item slotId).isSome = true := by
    intro l hl
    obtain ⟨q, hq, rfl⟩ := List.mem_map.mp hl
    split at hq
    · obtain ⟨slotId, rfl, hne, hsome⟩ := mem_roomsIn hq
      exact ⟨slotId, rfl, hne, hsome⟩
    · cases hq
  have hfree : ∀ l, l ∈ (w.roomsIn E tab item slot false (List.finRange _)).map Prod.fst →
      ∃ slotId, l = .inl (tab, slotId) ∧ some slotId ≠ slot ∧
        (w.itemDest tab item slotId).isSome = false := by
    intro l hl
    obtain ⟨q, hq, rfl⟩ := List.mem_map.mp hl
    obtain ⟨slotId, rfl, hne, hnone⟩ := mem_roomsIn hq
    exact ⟨slotId, rfl, hne, hnone⟩
  unfold rooms searchedRooms
  rw [List.map_append, List.map_append, List.nodup_append, List.nodup_append]
  refine ⟨?_, ⟨?_, roomsIn_places_nodup .., fun a ha b hb heq => ?_⟩, fun a ha b hb heq => ?_⟩
  · cases slot <;> simp [namedRooms]
  · split
    · exact roomsIn_places_nodup ..
    · exact List.nodup_nil
  · obtain ⟨i, rfl, -, hsome⟩ := hmerge a ha
    obtain ⟨j, rfl, -, hnone⟩ := hfree b hb
    cases heq
    rw [hnone] at hsome
    cases hsome
  · obtain ⟨q, hq, rfl⟩ := List.mem_map.mp ha
    obtain ⟨i, hi, rfl⟩ := List.mem_map.mp hq
    have hother : ∃ j, b = .inl (tab, j) ∧ some j ≠ slot := by
      rcases List.mem_append.mp hb with hb | hb
      · obtain ⟨j, hj, hne, -⟩ := hmerge b hb
        exact ⟨j, hj, hne⟩
      · obtain ⟨j, hj, hne, -⟩ := hfree b hb
        exact ⟨j, hj, hne⟩
    obtain ⟨j, rfl, hne⟩ := hother
    cases heq
    exact hne (Option.mem_toList.mp hi).symm

/-- The plan of a tab fits, where the item that moves has left its slot. -/
theorem rooms_fit {s : Location → Option Item}
    (hs : ∀ slotId, s (.inl (tab, slotId)) = w.itemDest tab item slotId) (n : ℕ) :
    Fits Item.entry Item.count E.templates item.entry s
      (allot (w.rooms E tab slot item) n) := by
  refine fits_allot (rooms_places_nodup tab slot item) fun q hq => ?_
  obtain ⟨slotId, rfl⟩ := mem_rooms hq
  rw [hs slotId]
  unfold room
  cases w.itemDest tab item slotId with
  | none => exact ⟨le_rfl, fun a ha => (nomatch ha)⟩
  | some dest =>
    dsimp only
    split
    · next hentry =>
      refine ⟨Nat.sub_le _ _, fun a ha hne => ?_⟩
      cases ha
      exact ⟨hentry, by omega⟩
    · exact ⟨Nat.zero_le _, fun a _ hne => absurd rfl hne⟩

/-! ## What a move relies on -/

/-- The slot exists. -/
def HasPlace (w : BankWorld) : Location → Prop
  | .inl (tab, _) => tab.val < w.guild.bankTabs.length
  | .inr _ => True

/-- The slots as `CanStore` sees them: without the item that moves, and without the one it is swapped
for. -/
def seen (w : BankWorld) (self : MoveItemData) (item : Item) (swap : Bool) (l : Location) :
    Option Item :=
  if swap ∧ self.location = some l then none
  else (w.itemAt l).filter fun dest => dest.guid ≠ item.guid

/-- No slot that takes a part of a stack has room for 256 items or more of what is left of it. -/
def Narrow (E : BankEnv) (w : BankWorld) (self : MoveItemData) (item : Item) (swap : Bool) : Prop :=
  match self with
  | .player _ => True
  | .bank tab slot =>
    if swap then item.count < 256
    else ∀ before p after, w.rooms E tab slot item = before ++ p :: after →
      min p.2 (item.count - (before.map Prod.snd).sum) < 256

variable {swap : Bool}

/-- A stack of fewer than 256 items is narrow everywhere. -/
theorem narrow_of_lt {self : MoveItemData} (h : item.count < 256) : w.Narrow E self item swap := by
  unfold Narrow
  split
  · trivial
  · split
    · exact h
    · intro before p after _
      omega

/-- A plan for a stack, and the positions of it. -/
structure Planned (E : BankEnv) (w : BankWorld) (m : MoveItemData) (item : Item) (swap : Bool)
    (plan : List (Location × ℕ)) (vec : List ItemPosCount) : Prop where
  vec_eq : vec = plan.map .ofPlan
  sum_eq : (plan.map Prod.snd).sum = item.count
  pos : ∀ p ∈ plan, 0 < p.2
  places : ∀ p ∈ plan, w.HasPlace p.1
  side : ∀ p ∈ plan, p.1.isLeft = m.isBank ∧
    (swap = true → m.isBank = true → m.location = some p.1)
  fits : Fits Item.entry Item.count E.templates item.entry (w.seen m item swap) plan
  narrow : (∀ p ∈ plan, p.2 < 256) ↔ w.Narrow E m item swap

/-- **What `CanStore` of a tab answers.** -/
theorem bankCanStore_planned (hcount : 0 < item.count) (hmax : item.count ≤ E.templates item.entry)
    (hswap : swap = true → slot ≠ none) (h : w.bankCanStore E tab slot item swap = some vec) :
    ∃ plan, w.Planned E (.bank tab slot) item swap plan vec := by
  have hpos : 0 < E.templates item.entry := hcount.trans_le hmax
  have htabs : w.guild.getPurchasedTabsSize ≤ w.guild.bankTabs.length := Nat.mod_le _ _
  cases swap with
  | false =>
    obtain ⟨htab, hvec, hroom⟩ := bankCanStore_plan hpos hcount h
    have hmem : ∀ p ∈ allot (w.rooms E tab slot item) item.count, ∃ slotId, p.1 = .inl (tab, slotId) :=
      fun p hp => by
        obtain ⟨-, r, hr, -⟩ := mem_allot hp
        obtain ⟨slotId, heq⟩ := mem_rooms hr
        exact ⟨slotId, congrArg Prod.fst heq⟩
    refine ⟨_, hvec, ?_, fun p hp => (mem_allot hp).1, fun p hp => ?_, fun p hp => ?_, ?_, ?_⟩
    · rw [sum_allot, min_eq_right hroom]
    · obtain ⟨slotId, heq⟩ := hmem p hp
      rw [heq]
      exact htab.trans_le htabs
    · obtain ⟨slotId, heq⟩ := hmem p hp
      exact ⟨by rw [heq]; rfl, fun hf => (nomatch hf)⟩
    · exact rooms_fit (fun slotId => if_neg fun hc => Bool.false_ne_true hc.1) item.count
    · exact allot_lt_iff _ _ (by decide)
  | true =>
    obtain ⟨slotId, rfl⟩ := Option.ne_none_iff_exists'.mp (hswap rfl)
    obtain ⟨htab, rfl⟩ := bankCanStore_swap hcount hmax h
    refine ⟨[(.inl (tab, slotId), item.count)], rfl, by simp, ?_, ?_, ?_, ⟨by simp, ?_⟩, ?_⟩
    · simpa using hcount
    · intro p hp
      rw [List.mem_singleton.mp hp]
      exact htab.trans_le htabs
    · intro p hp
      rw [List.mem_singleton.mp hp]
      exact ⟨rfl, fun _ _ => rfl⟩
    · intro p hp
      rw [List.mem_singleton.mp hp]
      refine ⟨hmax, fun a ha => ?_⟩
      have hnone : w.seen (.bank tab (some slotId)) item true (.inl (tab, slotId)) = none :=
        if_pos ⟨rfl, rfl⟩
      rw [hnone] at ha
      cases ha
    · show _ ↔ item.count < 256
      simp

/-- **What `CanStore` of an inventory is assumed to answer.** -/
theorem playerCanStore_planned (hE : E.PlacesExactly) {pos : InventoryPos} (hcount : 0 < item.count)
    (hmax : item.count ≤ E.templates item.entry)
    (hsizes : ∀ p a, w.inventory p = some a → 0 < a.count ∧ a.count ≤ E.templates a.entry)
    (hother : ∀ p a, w.inventory p = some a → a.guid ≠ item.guid)
    (h : w.canStore E (.player pos) item swap = some vec) :
    ∃ plan, w.Planned E (.player pos) item swap plan vec := by
  obtain ⟨found, hfound, rfl⟩ := Option.map_eq_some_iff.mp h
  obtain ⟨hfits, hpos, hsum⟩ := hE _ pos item swap found hsizes hother hcount hmax hfound
  refine ⟨found.map fun p => (.inr p.1, p.2.toNat), ?_, ?_, ?_, ?_, ?_, ⟨?_, ?_⟩, ?_⟩
  · rw [List.map_map]
    refine List.map_congr_left fun p _ => ?_
    show _ = ItemPosCount.mk (.inr p.1) (UInt8.ofNat p.2.toNat)
    rw [UInt8.ofNat_toNat]
  · rw [List.map_map]
    exact hsum
  · intro q hq
    obtain ⟨p, hp, rfl⟩ := List.mem_map.mp hq
    exact hpos p hp
  · intro q hq
    obtain ⟨p, -, rfl⟩ := List.mem_map.mp hq
    trivial
  · intro q hq
    obtain ⟨p, -, rfl⟩ := List.mem_map.mp hq
    exact ⟨rfl, fun _ hbank => (nomatch hbank)⟩
  · have hapart := hfits.apart.map (f := (Sum.inr : InventoryPos → Location)) Sum.inr_injective
    simpa [List.map_map, Function.comp_def] using hapart
  · intro q hq
    obtain ⟨p, hp, rfl⟩ := List.mem_map.mp hq
    obtain ⟨hle, hroom⟩ := hfits.room _ (List.mem_map_of_mem hp)
    refine ⟨hle, fun a ha => hroom a ?_⟩
    unfold seen at ha
    split at ha
    · cases ha
    · next hne =>
      have hat : w.inventory p.1 = some a := (Option.filter_eq_some_iff.mp ha).1
      split
      · next hswap =>
        rw [Function.update_of_ne fun heq => hne ⟨hswap, by rw [heq]; rfl⟩]
        exact hat
      · exact hat
  · refine iff_of_true (fun q hq => ?_) trivial
    obtain ⟨p, -, rfl⟩ := List.mem_map.mp hq
    exact p.2.toNat_lt

end BankWorld

end Sunstrider.Guilds
