import Sunstrider.Laws.Loots.Units

/-!
# Filling a loot

What each of the three lists of a player adds to the counter and to the units (`Filled.questLoot`,
`Filled.ffaLoot`, `Filled.conditionalLoot`). The counter stays exact while it has room for the units of a
player, and while no quest item for one is put on a second list unblocked (`Fits`).
-/

namespace Sunstrider.Loots.Loot

open Lib (incU8 incU8_eq)

variable {l : Loot} {p : Looter} {place : ℕ}

/-! ## The loops -/

/-- The places of the items that meet a condition, from one on. -/
def picks (pred : LootItem → Bool) (i : ℕ) (items : List LootItem) : List (LootItem × ℕ) :=
  (items.zipIdx i).filter fun x => pred x.1

/-- The entry of an item and its place on a new list. -/
def entry (x : LootItem × ℕ) : NotNormalLootItem := ⟨x.2, false⟩

variable {pred : LootItem → Bool} {item : LootItem}

theorem picks_cons_of_pos (h : pred item = true) (i : ℕ) (items : List LootItem) :
    picks pred i (item :: items) = (item, i) :: picks pred (i + 1) items := by
  unfold picks
  exact List.filter_cons_of_pos h

theorem picks_cons_of_neg (h : ¬ pred item = true) (i : ℕ) (items : List LootItem) :
    picks pred i (item :: items) = picks pred (i + 1) items := by
  unfold picks
  exact List.filter_cons_of_neg h

theorem mem_picks {items : List LootItem} {x : LootItem × ℕ} :
    x ∈ picks pred 0 items ↔ items[x.2]? = some x.1 ∧ pred x.1 = true := by
  unfold picks
  rw [List.mem_filter, List.mem_zipIdx_iff_getElem?]

theorem nodup_map_picks (pred : LootItem → Bool) (i : ℕ) (items : List LootItem) :
    ((picks pred i items).map Prod.snd).Nodup := by
  have hsub : ((picks pred i items).map Prod.snd).Sublist ((items.zipIdx i).map Prod.snd) :=
    List.filter_sublist.map Prod.snd
  refine hsub.nodup ?_
  rw [List.zipIdx_map_snd]
  exact List.nodup_range'

theorem map_index_entry (xs : List (LootItem × ℕ)) :
    (xs.map entry).map NotNormalLootItem.index = xs.map Prod.snd := by
  rw [List.map_map]
  rfl

variable {n : ℕ}

theorem ffaLoop_eq (p : Looter) (i : ℕ) (items : List LootItem)
    (h : n + items.countP (ffaAllowed p) < 2 ^ 8) :
    ffaLoop p i items n =
      ((picks (ffaAllowed p) i items).map entry, n + items.countP (ffaAllowed p)) := by
  induction items generalizing i n with
  | nil => rfl
  | cons item items ih =>
    unfold ffaLoop
    by_cases hallowed : ffaAllowed p item = true
    · rw [List.countP_cons_of_pos hallowed] at h
      have hinc : incU8 n = n + 1 := incU8_eq (by omega)
      rw [if_pos hallowed, hinc, ih (i + 1) (by omega), picks_cons_of_pos hallowed,
        List.countP_cons_of_pos hallowed]
      refine Prod.ext rfl ?_
      show n + 1 + _ = n + (_ + 1)
      omega
    · rw [List.countP_cons_of_neg hallowed] at h
      rw [if_neg hallowed, ih (i + 1) h, picks_cons_of_neg hallowed, List.countP_cons_of_neg hallowed]

/-- What `FillNonQuestNonFFAConditionalLoot` makes of an item. -/
def counted (p : Looter) (item : LootItem) : LootItem :=
  if conditionalAllowed p item then { item with isCounted := true } else item

/-- The items that it counts. -/
def newlyCounted (p : Looter) (item : LootItem) : Bool := conditionalAllowed p item && !item.isCounted

theorem conditionalLoop_eq (p : Looter) (i : ℕ) (items : List LootItem)
    (h : n + items.countP (newlyCounted p) < 2 ^ 8) :
    conditionalLoop p i items n = (items.map (counted p),
      (picks (conditionalAllowed p) i items).map entry, n + items.countP (newlyCounted p)) := by
  induction items generalizing i n with
  | nil => rfl
  | cons item items ih =>
    unfold conditionalLoop
    rw [List.countP_cons] at h
    by_cases hallowed : conditionalAllowed p item = true
    · have hcount : (if item.isCounted then n else incU8 n) =
          n + if newlyCounted p item then 1 else 0 := by
        unfold newlyCounted at h ⊢
        rw [hallowed] at h ⊢
        cases hcounted : item.isCounted with
        | true => simp
        | false =>
          rw [hcounted] at h
          have hinc : incU8 n = n + 1 := incU8_eq (by simp at h; omega)
          simp [hinc]
      have hmap : counted p item = { item with isCounted := true } := if_pos hallowed
      rw [if_pos hallowed, hcount]
      dsimp only
      rw [ih (i + 1) (by omega), picks_cons_of_pos hallowed, List.map_cons, hmap, List.countP_cons]
      refine Prod.ext rfl (Prod.ext rfl ?_)
      show n + _ + _ = n + (_ + _)
      omega
    · have hmap : counted p item = item := if_neg hallowed
      have hnew : newlyCounted p item = false := by
        unfold newlyCounted
        rw [Bool.eq_false_iff.mpr hallowed, Bool.false_and]
      rw [hnew] at h
      rw [if_neg hallowed, ih (i + 1) (by simpa using h), picks_cons_of_neg hallowed, List.map_cons, hmap,
        List.countP_cons, hnew]
      rfl

/-- A quest item that is counted when it comes on a list. -/
def countsOnce (x : LootItem × ℕ) : Bool := x.1.freeForAll || !x.1.isBlocked

/-- What `FillQuestLoot` makes of an item that comes on a list. -/
def blocked (p : Looter) (item : LootItem) : LootItem :=
  if blocks p then { item with isBlocked := true } else item

/-- What the loop of `FillQuestLoot` does, when a list has room for some items. -/
structure QuestLoop (p : Looter) (i room : ℕ) (items : List LootItem) (n : ℕ)
    (out : List LootItem × List NotNormalLootItem × ℕ) : Prop where
  list : out.2.1 = ((picks (questAllowed p) i items).take room).map entry
  count : out.2.2 = n + ((picks (questAllowed p) i items).take room).countP countsOnce
  length : out.1.length = items.length
  items : ∀ k item, items[k]? = some item →
    out.1[k]? = some (if i + k ∈ ((picks (questAllowed p) i items).take room).map Prod.snd then
      blocked p item else item)

theorem questLoop_spec (p : Looter) (i seen : ℕ) (items : List LootItem) {room : ℕ}
    (hroom : seen + (room + 1) = maxNrLootItems)
    (h : n + ((picks (questAllowed p) i items).take (room + 1)).countP countsOnce < 2 ^ 8) :
    QuestLoop p i (room + 1) items n (questLoop p i seen items n) := by
  induction items generalizing i seen n room with
  | nil => exact ⟨rfl, rfl, rfl, fun k item hk => by simp at hk⟩
  | cons item items ih =>
    have hafter : i ∉ ((picks (questAllowed p) (i + 1) items).take (room + 1)).map Prod.snd := by
      intro hmem
      obtain ⟨x, hx, heq⟩ := List.mem_map.mp hmem
      have hx := List.mem_of_mem_take hx
      unfold picks at hx
      have hle := (List.mk_mem_zipIdx_iff_le_and_getElem?_sub.mp (List.mem_of_mem_filter hx)).1
      omega
    unfold questLoop
    by_cases hallowed : questAllowed p item = true
    · rw [picks_cons_of_pos hallowed, List.take_succ_cons, List.countP_cons] at h
      have hcount : (if item.freeForAll || !item.isBlocked then incU8 n else n) =
          n + if countsOnce (item, i) then 1 else 0 := by
        have hinc : incU8 n = n + 1 ∨ countsOnce (item, i) = false := by
          cases hc : countsOnce (item, i) with
          | false => exact .inr rfl
          | true =>
            rw [hc] at h
            exact .inl (incU8_eq (by simp at h; omega))
        show (if countsOnce (item, i) then incU8 n else n) = _
        rcases hinc with hinc | hc
        · rw [hinc]
          split <;> rfl
        · rw [hc]
          rfl
      rw [if_pos hallowed, hcount]
      show QuestLoop p i (room + 1) (item :: items) n
        (if seen + 1 = maxNrLootItems then (blocked p item :: items, [⟨i, false⟩], _) else _)
      by_cases hfull : seen + 1 = maxNrLootItems
      · obtain rfl : room = 0 := by omega
        rw [if_pos hfull]
        refine ⟨?_, ?_, rfl, fun k it hk => ?_⟩
        · rw [picks_cons_of_pos hallowed]
          rfl
        · rw [picks_cons_of_pos hallowed]
          show _ = n + [(item, i)].countP countsOnce
          rw [List.countP_singleton]
        · rw [picks_cons_of_pos hallowed]
          show (blocked p item :: items)[k]? = some (if i + k ∈ [i] then _ else _)
          cases k with
          | zero =>
            obtain rfl : item = it := by simpa using hk
            simp
          | succ k =>
            simp only [List.getElem?_cons_succ] at hk ⊢
            rw [hk, if_neg (by simp)]
      · rw [if_neg hfull]
        obtain ⟨room, rfl⟩ : ∃ r, room = r + 1 := ⟨room - 1, by omega⟩
        have hrest : QuestLoop p (i + 1) (room + 1) items (n + if countsOnce (item, i) then 1 else 0)
            (questLoop p (i + 1) (seen + 1) items (n + if countsOnce (item, i) then 1 else 0)) :=
          ih (i + 1) (seen + 1) (by omega) (by omega)
        obtain ⟨hlist, hn, hlength, hitems⟩ := hrest
        refine ⟨?_, ?_, ?_, fun k it hk => ?_⟩
        · rw [picks_cons_of_pos hallowed, List.take_succ_cons, List.map_cons, ← hlist]
          rfl
        · rw [picks_cons_of_pos hallowed, List.take_succ_cons, List.countP_cons]
          show (questLoop p (i + 1) (seen + 1) items _).2.2 = _
          omega
        · show (questLoop p (i + 1) (seen + 1) items _).1.length + 1 = items.length + 1
          rw [hlength]
        · rw [picks_cons_of_pos hallowed, List.take_succ_cons, List.map_cons]
          cases k with
          | zero =>
            obtain rfl : item = it := by simpa using hk
            simp [blocked]
          | succ k =>
            have hstep := hitems k it (by simpa using hk)
            have hne : i + (k + 1) ≠ i := by omega
            show (questLoop p (i + 1) (seen + 1) items _).1[k]? = _
            rw [hstep]
            simp only [List.mem_cons, hne, false_or]
            congr 3
            omega
    · rw [picks_cons_of_neg hallowed] at h
      rw [if_neg hallowed]
      obtain ⟨hlist, hn, hlength, hitems⟩ := ih (i + 1) seen (n := n) hroom h
      refine ⟨?_, ?_, ?_, fun k it hk => ?_⟩
      · rw [picks_cons_of_neg hallowed]
        exact hlist
      · rw [picks_cons_of_neg hallowed]
        exact hn
      · show (questLoop p (i + 1) seen items n).1.length + 1 = items.length + 1
        rw [hlength]
      · rw [picks_cons_of_neg hallowed]
        cases k with
        | zero =>
          obtain rfl : item = it := by simpa using hk
          rw [add_zero, if_neg hafter]
          rfl
        | succ k =>
          have hstep := hitems k it (by simpa using hk)
          show (questLoop p (i + 1) seen items n).1[k]? = _
          rw [hstep]
          congr 3
          omega

/-! ## What holds while a loot is filled -/

/-- The counter is exact, and every item for one player was handed out once if it is looted, and else not
at all. -/
structure Sound (l : Loot) : Prop where
  counts : l.unlootedCount = l.outstanding
  small : l.unlootedCount < 2 ^ 8
  questKeys : (l.playerQuestItems.map Prod.fst).Nodup
  ffaKeys : (l.playerFFAItems.map Prod.fst).Nodup
  handed : ∀ place item, l.itemAt place = some item → item.freeForAll = false →
    l.handed.count place = if item.isLooted then 1 else 0

/-- A loot that players are still filled in: a blocked quest item for one is on a list. -/
structure Filled (l : Loot) : Prop extends Sound l where
  size : l.items.length ≤ maxNrLootItems
  blocked : ∀ i item, l.questItems[i]? = some item → item.freeForAll = false →
    item.isBlocked = true → listed l.playerQuestItems i = true

theorem Sound.handed_of_same {l l' : Loot} (h : l.Sound) (hhanded : l'.handed = l.handed)
    (hsame : ∀ place item, l'.itemAt place = some item → ∃ old, l.itemAt place = some old ∧
      item.freeForAll = old.freeForAll ∧ item.isLooted = old.isLooted) :
    ∀ place item, l'.itemAt place = some item → item.freeForAll = false →
      l'.handed.count place = if item.isLooted then 1 else 0 := by
  intro place item hitem hffa
  obtain ⟨old, hold, hffa', hlooted⟩ := hsame place item hitem
  rw [hhanded, hlooted]
  exact h.handed place old hold (hffa' ▸ hffa)

theorem Sound.handed_of_map (h : l.Sound) {f : LootItem → LootItem}
    (hf : ∀ item, (f item).freeForAll = item.freeForAll ∧ (f item).isLooted = item.isLooted) :
    ∀ place item, itemAt { l with items := l.items.map f } place = some item →
      item.freeForAll = false → l.handed.count place = if item.isLooted then 1 else 0 := by
  refine h.handed_of_same rfl fun place item hitem => ?_
  unfold itemAt at hitem ⊢
  rw [List.length_map] at hitem
  split at hitem
  next hle =>
    rw [if_pos hle]
    exact ⟨item, hitem, rfl, rfl⟩
  next hlt =>
    rw [if_neg hlt]
    rw [List.getElem?_map, Option.map_eq_some_iff] at hitem
    obtain ⟨old, hold, rfl⟩ := hitem
    exact ⟨old, hold, hf old⟩

/-- The quest items that come on the list of a player. -/
def questTaken (l : Loot) (p : Looter) : List (LootItem × ℕ) :=
  (picks (questAllowed p) 0 l.questItems).take (maxNrLootItems - l.items.length)

theorem mem_questTaken {x : LootItem × ℕ} (h : x ∈ l.questTaken p) :
    l.questItems[x.2]? = some x.1 ∧ questAllowed p x.1 = true :=
  mem_picks.mp (List.mem_of_mem_take h)

theorem nodup_questTaken (l : Loot) (p : Looter) : ((l.questTaken p).map Prod.snd).Nodup :=
  ((List.take_sublist ..).map Prod.snd).nodup (nodup_map_picks (questAllowed p) 0 l.questItems)

/-- The units that a player adds. -/
def newUnits (l : Loot) (p : Looter) : ℕ :=
  (l.questTaken p).countP countsOnce + l.items.countP (ffaAllowed p) +
    l.items.countP (newlyCounted p)

/-- **When a player can be filled in.** Nothing was filled in for him; the counter has room for his units;
no quest item for one that he gets is on another list unblocked; and storing tokens allows him nothing
that he was not allowed before. -/
structure Fits (l : Loot) (p : Looter) : Prop where
  noQuest : listOf l.playerQuestItems p.guid = none
  noFFA : listOf l.playerFFAItems p.guid = none
  noConditional : listOf l.playerConditionalItems p.guid = none
  room : l.unlootedCount + l.newUnits p < 2 ^ 8
  unlisted : ∀ x ∈ l.questTaken p, x.1.freeForAll = false → x.1.isBlocked = false →
    listed l.playerQuestItems x.2 = false
  steady : ∀ x ∈ l.items.zipIdx, x.1.freeForAll = true → p.allowedAt x.2 x.1 = true →
    p.allowed x.1 = true

instance (l : Loot) (p : Looter) : Decidable (l.Fits p) :=
  decidable_of_iff ((listOf l.playerQuestItems p.guid = none ∧ listOf l.playerFFAItems p.guid = none ∧
      listOf l.playerConditionalItems p.guid = none) ∧ l.unlootedCount + l.newUnits p < 2 ^ 8 ∧
      (∀ x ∈ l.questTaken p, x.1.freeForAll = false → x.1.isBlocked = false →
        listed l.playerQuestItems x.2 = false) ∧
      ∀ x ∈ l.items.zipIdx, x.1.freeForAll = true → p.allowedAt x.2 x.1 = true → p.allowed x.1 = true)
    ⟨fun ⟨⟨hq, hf, hc⟩, hroom, hunlisted, hsteady⟩ => ⟨hq, hf, hc, hroom, hunlisted, hsteady⟩,
      fun h => ⟨⟨h.noQuest, h.noFFA, h.noConditional⟩, h.room, h.unlisted, h.steady⟩⟩

/-! ## The quest items of a player -/

/-- What `FillQuestLoot` does. -/
structure QuestFilled (l : Loot) (p : Looter) (l' : Loot) : Prop where
  items : l'.items = l.items
  ffa : l'.playerFFAItems = l.playerFFAItems
  conditional : l'.playerConditionalItems = l.playerConditionalItems
  handed : l'.handed = l.handed
  quest : l'.playerQuestItems = withList l.playerQuestItems p.guid ((l.questTaken p).map entry)
  count : l'.unlootedCount = l.unlootedCount + (l.questTaken p).countP countsOnce
  length : l'.questItems.length = l.questItems.length
  questItems : ∀ k item, l.questItems[k]? = some item →
    l'.questItems[k]? = some (if k ∈ (l.questTaken p).map Prod.snd then Loot.blocked p item else item)

theorem questFilled (hsize : l.items.length ≤ maxNrLootItems)
    (hroom : l.unlootedCount + (l.questTaken p).countP countsOnce < 2 ^ 8) :
    QuestFilled l p (l.fillQuestLoot p) := by
  unfold fillQuestLoot
  by_cases hfull : l.items.length = maxNrLootItems
  · have hnone : l.questTaken p = [] := by
      unfold questTaken
      rw [hfull, Nat.sub_self, List.take_zero]
    rw [if_pos hfull]
    refine ⟨rfl, rfl, rfl, rfl, ?_, ?_, rfl, fun k item hk => ?_⟩
    · rw [hnone]
      rfl
    · rw [hnone]
      rfl
    · rw [hnone, hk]
      rfl
  · obtain ⟨room, hr⟩ : ∃ room, maxNrLootItems - l.items.length = room + 1 :=
      ⟨maxNrLootItems - l.items.length - 1, by omega⟩
    have htaken : l.questTaken p = (picks (questAllowed p) 0 l.questItems).take (room + 1) := by
      unfold questTaken
      rw [hr]
    rw [htaken] at hroom
    obtain ⟨hlist, hn, hlength, hitems⟩ :=
      questLoop_spec p 0 l.items.length l.questItems (by omega) hroom
    rw [if_neg hfull]
    refine ⟨rfl, rfl, rfl, rfl, ?_, ?_, hlength, fun k item hk => ?_⟩
    · rw [htaken, ← hlist]
    · rw [htaken]
      exact hn
    · have hstep := hitems k item hk
      rw [zero_add] at hstep
      rw [htaken]
      exact hstep

section QuestFilled

variable {l' : Loot} (hq : QuestFilled l p l')
include hq

theorem QuestFilled.old {k : ℕ} (h : l'.questItems[k]? = some item) :
    ∃ old, l.questItems[k]? = some old ∧
      item = if k ∈ (l.questTaken p).map Prod.snd then Loot.blocked p old else old := by
  have hlt : k < l.questItems.length := by
    rw [← hq.length]
    exact (List.getElem?_eq_some_iff.mp h).1
  have hold : l.questItems[k]? = some l.questItems[k] := List.getElem?_eq_getElem hlt
  have hnew := hq.questItems k _ hold
  rw [h] at hnew
  exact ⟨_, hold, Option.some.inj hnew⟩

theorem QuestFilled.same {k : ℕ} (h : l'.questItems[k]? = some item) :
    ∃ old, l.questItems[k]? = some old ∧ item.freeForAll = old.freeForAll ∧
      item.isLooted = old.isLooted := by
  obtain ⟨old, hold, rfl⟩ := hq.old h
  refine ⟨old, hold, ?_⟩
  unfold Loot.blocked
  split
  · split <;> exact ⟨rfl, rfl⟩
  · exact ⟨rfl, rfl⟩

theorem QuestFilled.getElem?_none {i : ℕ} (h : l'.questItems[i]? = none) :
    l.questItems[i]? = none := by
  rw [List.getElem?_eq_none_iff] at h ⊢
  rwa [← hq.length]

theorem QuestFilled.isFFA_eq : isFFA l'.questItems = isFFA l.questItems := by
  funext i
  unfold isFFA
  cases h : l'.questItems[i]? with
  | none =>
    rw [hq.getElem?_none h]
  | some item =>
    obtain ⟨old, hold, hffa, -⟩ := hq.same h
    rw [hold]
    exact hffa

theorem QuestFilled.isSingle_eq : isSingle l'.questItems = isSingle l.questItems := by
  funext i
  unfold isSingle
  cases h : l'.questItems[i]? with
  | none =>
    rw [hq.getElem?_none h]
  | some item =>
    obtain ⟨old, hold, hffa, hlooted⟩ := hq.same h
    rw [hold]
    show (!item.freeForAll && !item.isLooted) = _
    rw [hffa, hlooted]
    rfl

theorem QuestFilled.questUnits_eq (h : l.Filled) (hfits : l.Fits p) :
    questUnits l'.questItems l'.playerQuestItems =
      questUnits l.questItems l.playerQuestItems + (l.questTaken p).countP countsOnce := by
  have hat : ∀ x ∈ l.questTaken p, l.questItems[x.2]? = some x.1 ∧ x.1.isLooted = false := by
    intro x hx
    obtain ⟨hget, hallowed⟩ := mem_questTaken hx
    unfold questAllowed at hallowed
    exact ⟨hget, by simpa using (Bool.and_eq_true_iff.mp hallowed).1⟩
  have hffa : ((l.questTaken p).map entry).countP
        (fun e => !e.isLooted && isFFA l.questItems e.index) =
      (l.questTaken p).countP fun x => x.1.freeForAll := by
    rw [List.countP_map]
    refine List.countP_congr fun x hx => ?_
    show (!false && isFFA l.questItems x.2) = true ↔ _
    unfold isFFA
    rw [(hat x hx).1]
    simp
  have hlt : ∀ i ∈ (l.questTaken p).map Prod.snd, i < l.questItems.length := by
    intro i hi
    obtain ⟨x, hx, rfl⟩ := List.mem_map.mp hi
    exact (List.getElem?_eq_some_iff.mp (hat x hx).1).1
  -- the places that come on a list for the first time
  have hnew : (List.range l.questItems.length).countP (fun i =>
        decide (i ∈ (l.questTaken p).map Prod.snd) &&
          (!listed l.playerQuestItems i && isSingle l.questItems i)) =
      (l.questTaken p).countP fun x => !x.1.freeForAll && !listed l.playerQuestItems x.2 := by
    rw [countP_mem (l.nodup_questTaken p) hlt, List.countP_map]
    refine List.countP_congr fun x hx => ?_
    show (!listed l.playerQuestItems x.2 && isSingle l.questItems x.2) = true ↔ _
    unfold isSingle
    rw [(hat x hx).1, Bool.and_comm]
    simp [(hat x hx).2]
  have hsplit : (List.range l.questItems.length).countP (fun i =>
        listed l'.playerQuestItems i && isSingle l.questItems i) =
      (List.range l.questItems.length).countP (fun i =>
        listed l.playerQuestItems i && isSingle l.questItems i) +
      (List.range l.questItems.length).countP fun i =>
        decide (i ∈ (l.questTaken p).map Prod.snd) &&
          (!listed l.playerQuestItems i && isSingle l.questItems i) := by
    have hlisted : ∀ i, listed l'.playerQuestItems i =
        (listed l.playerQuestItems i || decide (i ∈ (l.questTaken p).map Prod.snd)) := by
      intro i
      rw [hq.quest, listed_withList hfits.noQuest, List.any_map]
      congr 1
      rw [Bool.eq_iff_iff, List.any_eq_true, decide_eq_true_iff, List.mem_map]
      exact exists_congr fun x => and_congr_right fun _ => decide_eq_true_iff
    have hor := countP_or (fun i => listed l.playerQuestItems i && isSingle l.questItems i)
      (fun i => decide (i ∈ (l.questTaken p).map Prod.snd) && isSingle l.questItems i)
      (List.range l.questItems.length)
    refine (List.countP_congr fun i _ => ?_).trans (hor.trans (Nat.add_left_cancel_iff.mpr ?_))
    · rw [hlisted, Bool.and_or_distrib_right]
    · refine List.countP_congr fun i _ => ?_
      cases listed l.playerQuestItems i <;> cases isSingle l.questItems i <;> simp
  -- an item for one is counted just if no list has it yet
  have hcounts : (l.questTaken p).countP countsOnce =
      (l.questTaken p).countP (fun x => x.1.freeForAll) +
        (l.questTaken p).countP fun x => !x.1.freeForAll && !listed l.playerQuestItems x.2 := by
    have honce : ∀ x ∈ l.questTaken p, countsOnce x =
        (x.1.freeForAll || !x.1.freeForAll && !listed l.playerQuestItems x.2) := by
      intro x hx
      unfold countsOnce
      cases hf : x.1.freeForAll with
      | true => simp
      | false =>
        cases hb : x.1.isBlocked with
        | true => simp [h.blocked x.2 x.1 (hat x hx).1 hf hb]
        | false => simp [hfits.unlisted x hx hf hb]
    have hor := countP_or (fun x : LootItem × ℕ => x.1.freeForAll)
      (fun x => !x.1.freeForAll && !listed l.playerQuestItems x.2) (l.questTaken p)
    refine (List.countP_congr fun x hx => by rw [honce x hx]).trans
      (hor.trans (Nat.add_left_cancel_iff.mpr ?_))
    exact List.countP_congr fun x _ => by cases x.1.freeForAll <;> simp
  unfold questUnits
  rw [hq.quest, units_withList hfits.noQuest, hq.isFFA_eq, hq.isSingle_eq, hq.length, hffa, hcounts,
    ← hnew, ← hq.quest, hsplit]
  omega

end QuestFilled

theorem Filled.questLoot {l' : Loot} (h : l.Filled) (hfits : l.Fits p) (hq : QuestFilled l p l')
    (hroom : l.unlootedCount + (l.questTaken p).countP countsOnce < 2 ^ 8) : l'.Filled where
  counts := by
    unfold outstanding
    rw [hq.count, hq.items, hq.ffa, hq.questUnits_eq h hfits, h.counts]
    unfold outstanding
    omega
  small := by
    rw [hq.count]
    exact hroom
  questKeys := by
    rw [hq.quest]
    exact nodup_withList h.questKeys _
  ffaKeys := by
    rw [hq.ffa]
    exact h.ffaKeys
  handed := by
    refine h.toSound.handed_of_same hq.handed fun place item hitem => ?_
    unfold itemAt at hitem ⊢
    rw [hq.items] at hitem
    split at hitem
    next hle =>
      rw [if_pos hle]
      exact hq.same hitem
    next hlt =>
      rw [if_neg hlt]
      exact ⟨item, hitem, rfl, rfl⟩
  size := by
    rw [hq.items]
    exact h.size
  blocked := by
    intro i item hitem hffa hblocked
    rw [hq.quest, listed_withList hfits.noQuest, Bool.or_eq_true]
    obtain ⟨old, hold, heq⟩ := hq.old hitem
    by_cases hmem : i ∈ (l.questTaken p).map Prod.snd
    · obtain ⟨x, hx, rfl⟩ := List.mem_map.mp hmem
      refine .inr (List.any_eq_true.mpr ⟨entry x, List.mem_map_of_mem hx, ?_⟩)
      exact decide_eq_true rfl
    · rw [if_neg hmem] at heq
      subst heq
      exact .inl (h.blocked i item hold hffa hblocked)

/-! ## The items for everybody -/

theorem fillFFALoot_eq (hroom : l.unlootedCount + l.items.countP (ffaAllowed p) < 2 ^ 8) :
    l.fillFFALoot p = { l with
      playerFFAItems := withList l.playerFFAItems p.guid ((picks (ffaAllowed p) 0 l.items).map entry)
      unlootedCount := l.unlootedCount + l.items.countP (ffaAllowed p) } := by
  unfold fillFFALoot
  rw [ffaLoop_eq p 0 l.items hroom]

theorem length_picks (pred : LootItem → Bool) (i : ℕ) (items : List LootItem) :
    (picks pred i items).length = items.countP pred := by
  induction items generalizing i with
  | nil => rfl
  | cons item items ih =>
    by_cases h : pred item = true
    · rw [picks_cons_of_pos h, List.countP_cons_of_pos h, List.length_cons, ih]
    · rw [picks_cons_of_neg h, List.countP_cons_of_neg h, ih]

theorem Filled.ffaLoot (h : l.Filled) (hnone : listOf l.playerFFAItems p.guid = none)
    (hroom : l.unlootedCount + l.items.countP (ffaAllowed p) < 2 ^ 8) : (l.fillFFALoot p).Filled := by
  have hunits : ((picks (ffaAllowed p) 0 l.items).map entry).countP (fun e => !e.isLooted) =
      l.items.countP (ffaAllowed p) := by
    rw [List.countP_map, ← length_picks (ffaAllowed p) 0]
    exact List.countP_eq_length.mpr fun x _ => rfl
  rw [fillFFALoot_eq hroom]
  refine ⟨⟨?_, hroom, h.questKeys, nodup_withList h.ffaKeys _, h.handed⟩, h.size, h.blocked⟩
  unfold outstanding
  dsimp only
  rw [units_withList hnone, hunits, h.counts]
  unfold outstanding
  omega

/-! ## The items with conditions -/

theorem fillConditionalLoot_eq (hroom : l.unlootedCount + l.items.countP (newlyCounted p) < 2 ^ 8) :
    l.fillConditionalLoot p = { l with
      items := l.items.map (counted p)
      playerConditionalItems :=
        withList l.playerConditionalItems p.guid ((picks (conditionalAllowed p) 0 l.items).map entry)
      unlootedCount := l.unlootedCount + l.items.countP (newlyCounted p) } := by
  unfold fillConditionalLoot
  rw [conditionalLoop_eq p 0 l.items hroom]

theorem counted_same (p : Looter) (item : LootItem) :
    (counted p item).freeForAll = item.freeForAll ∧ (counted p item).isLooted = item.isLooted := by
  unfold counted
  split <;> exact ⟨rfl, rfl⟩

theorem waits_counted (p : Looter) (item : LootItem) :
    waits (counted p item) = (waits item || newlyCounted p item) := by
  unfold counted waits newlyCounted
  by_cases hallowed : conditionalAllowed p item = true
  · rw [if_pos hallowed, hallowed]
    unfold conditionalAllowed at hallowed
    cases hffa : item.freeForAll <;> cases hlooted : item.isLooted <;> cases hcounted : item.isCounted <;>
      simp_all
  · rw [if_neg hallowed, Bool.eq_false_iff.mpr hallowed, Bool.false_and, Bool.or_false]

theorem Filled.conditionalLoot (h : l.Filled)
    (hroom : l.unlootedCount + l.items.countP (newlyCounted p) < 2 ^ 8) :
    (l.fillConditionalLoot p).Filled := by
  have hwaits : (l.items.map (counted p)).countP waits =
      l.items.countP waits + l.items.countP (newlyCounted p) := by
    rw [List.countP_map]
    have hor := countP_or waits (newlyCounted p) l.items
    refine (List.countP_congr fun item _ => ?_).trans (hor.trans (Nat.add_left_cancel_iff.mpr ?_))
    · rw [Function.comp_apply, waits_counted]
    · refine List.countP_congr fun item _ => ?_
      -- what is counted only now did not wait
      cases hnew : newlyCounted p item with
      | false => simp
      | true =>
        unfold newlyCounted conditionalAllowed at hnew
        unfold waits
        simp_all
  rw [fillConditionalLoot_eq hroom]
  refine ⟨⟨?_, hroom, h.questKeys, h.ffaKeys, ?_⟩, ?_, h.blocked⟩
  · unfold outstanding
    dsimp only
    rw [hwaits, h.counts]
    unfold outstanding
    omega
  · exact h.toSound.handed_of_map (counted_same p)
  · show (l.items.map (counted p)).length ≤ maxNrLootItems
    rw [List.length_map]
    exact h.size

end Sunstrider.Loots.Loot
