import Sunstrider.Laws.Loots.Tokens

/-!
# The counter of a loot

**When the counter of a loot is exact** (`exact_iff_single`): for every loot that is filled with players
who fit, the counter is right after each win and each gift of the master looter just if each of them hands
out an item that is one unit. Neither of the two looks whether the item is looted already.
-/

namespace Sunstrider.Loots.Loot

open Lib (AllAlong always_iff_allAlong decU8 foldl_keeps foldl_keeps_of_allAlong incU8 incU8_eq)

variable {l : Loot} {p : Looter} {templates : ItemTemplates}

/-! ## The items of a loot -/

/-- A loot that no player was filled in. -/
structure Dropped (l : Loot) : Prop where
  quest : l.playerQuestItems = []
  ffa : l.playerFFAItems = []
  handed : l.handed = []
  counts : l.unlootedCount = l.items.countP waits
  size : l.items.length ≤ maxNrLootItems
  fresh : ∀ item ∈ l.items ++ l.questItems, item.isLooted = false ∧ item.isBlocked = false

theorem dropped_new (gold : ℕ) : (Loot.new gold).Dropped :=
  ⟨rfl, rfl, rfl, rfl, Nat.zero_le _, fun _ h => (nomatch h)⟩

theorem Dropped.addStacks {proto : ItemTemplate} {item : LootStoreItem} {generated : LootItem}
    (hproto : generated.freeForAll = proto.multiDrop) (hconditions : generated.conditions = item.conditions)
    (hlooted : generated.isLooted = false) (hblocked : generated.isBlocked = false)
    (hcounted : generated.isCounted = false) (n count : ℕ) (h : l.Dropped) :
    (Loot.addStacks proto item generated n count l).Dropped := by
  induction n generalizing l count with
  | zero => exact h
  | succ n ih =>
    unfold Loot.addStacks
    cases hquest : item.needsQuest with
    | true =>
      simp only [if_true, Bool.not_true, Bool.false_and, Bool.false_eq_true, if_false]
      split
      · refine ih _ ⟨h.quest, h.ffa, h.handed, h.counts, h.size, fun it hit => ?_⟩
        rw [← List.append_assoc, List.mem_append, List.mem_singleton] at hit
        rcases hit with hit | rfl
        · exact h.fresh it hit
        · exact ⟨hlooted, hblocked⟩
      · exact h
    | false =>
      simp only [Bool.false_eq_true, if_false, Bool.not_false, Bool.true_and]
      split
      · next hlt =>
        have hle : l.items.countP waits ≤ l.items.length := List.countP_le_length
        have hlimit : maxNrLootItems < 2 ^ 8 := by decide
        have hwaits : ∀ count, waits { generated with count := count } =
            (item.conditions.isEmpty && !proto.multiDrop) := by
          intro count
          unfold waits
          rw [hproto, hconditions, hlooted, hcounted]
          simp [Bool.and_comm]
        have hfresh : ∀ count, ∀ it ∈ (l.items ++ [{ generated with count := count }]) ++ l.questItems,
            it.isLooted = false ∧ it.isBlocked = false := by
          intro count it hit
          rw [List.mem_append, List.mem_append, List.mem_singleton] at hit
          rcases hit with (hit | rfl) | hit
          · exact h.fresh it (List.mem_append_left _ hit)
          · exact ⟨hlooted, hblocked⟩
          · exact h.fresh it (List.mem_append_right _ hit)
        have hsize : ∀ x : LootItem, (l.items ++ [x]).length ≤ maxNrLootItems := by
          intro x
          rw [List.length_append, List.length_singleton]
          exact hlt
        split
        next hplain =>
          refine ih _ ⟨h.quest, h.ffa, h.handed, ?_, hsize _, hfresh _⟩
          show incU8 l.unlootedCount = (l.items ++ [_]).countP waits
          rw [List.countP_append, List.countP_singleton, hwaits, hplain, if_pos rfl, h.counts]
          exact incU8_eq (by omega)
        next hplain =>
          refine ih _ ⟨h.quest, h.ffa, h.handed, ?_, hsize _, hfresh _⟩
          show l.unlootedCount = (l.items ++ [_]).countP waits
          rw [List.countP_append, List.countP_singleton, hwaits, if_neg hplain, h.counts, add_zero]
      · exact h

theorem Dropped.addItem (h : l.Dropped) (item : LootStoreItem) : (l.addItem templates item).Dropped := by
  unfold Loot.addItem
  cases hproto : templates item.itemid with
  | none => exact h
  | some proto =>
    refine Dropped.addStacks ?_ rfl rfl rfl rfl _ _ h
    show (templates item.itemid).any _ = _
    rw [hproto]
    rfl

theorem Dropped.filled (h : l.Dropped) : l.Filled where
  counts := by
    have hnone : (List.range l.questItems.length).countP (fun i =>
        listed [] i && isSingle l.questItems i) = 0 :=
      List.countP_eq_zero.mpr fun i _ => by simp [listed]
    unfold outstanding questUnits
    rw [h.quest, h.ffa, hnone]
    exact h.counts
  small := by
    have hle : l.items.countP waits ≤ l.items.length := List.countP_le_length
    have hlimit : maxNrLootItems < 2 ^ 8 := by decide
    have hcounts := h.counts
    have hsize := h.size
    omega
  questKeys := by
    rw [h.quest]
    exact List.nodup_nil
  ffaKeys := by
    rw [h.ffa]
    exact List.nodup_nil
  handed place item hitem _ := by
    have hmem : item ∈ l.items ++ l.questItems := by
      unfold itemAt at hitem
      split at hitem
      · exact List.mem_append_right _ (List.mem_of_getElem? hitem)
      · exact List.mem_append_left _ (List.mem_of_getElem? hitem)
    rw [h.handed, (h.fresh item hmem).1]
    rfl
  size := h.size
  blocked i item hitem _ hblocked := by
    have hmem : item ∈ l.items ++ l.questItems := List.mem_append_right _ (List.mem_of_getElem? hitem)
    rw [(h.fresh item hmem).2] at hblocked
    cases hblocked

/-! ## The whole loot -/

/-- Every player of a filling fits when his turn comes. -/
def AllFit (templates : ItemTemplates) (gold : ℕ) (drops : List LootStoreItem) (owner : Looter)
    (group : Option (ℕ × List Looter)) : Prop :=
  match group with
  | some (_, members) =>
    AllAlong (fillNotNormalLootFor templates) Fits
      { drops.foldl (addItem templates) (new gold) with roundRobinPlayer := some owner.guid } members
  | none =>
    Fits (drops.foldl (addItem templates) (new gold)) { owner with presentAtLooting := true }

theorem Sound.markUnderThreshold (h : l.Sound) (threshold : ℕ) :
    (Loot.markUnderThreshold templates threshold l).Sound := by
  have hsame : ∀ item : LootItem, ∀ marked, marked = (if (templates item.itemid).any (·.quality < threshold)
      then { item with isUnderThreshold := true } else item) →
      waits marked = waits item ∧ marked.freeForAll = item.freeForAll ∧
        marked.isLooted = item.isLooted := by
    rintro item marked rfl
    split <;> exact ⟨rfl, rfl, rfl⟩
  refine ⟨?_, h.small, h.questKeys, h.ffaKeys, ?_⟩
  · show l.unlootedCount = _ + _ + _
    rw [h.counts]
    unfold Loot.markUnderThreshold outstanding
    rw [List.countP_map]
    congr 2
    exact List.countP_congr fun item _ => by rw [Function.comp_apply, (hsame item _ rfl).1]
  · exact h.handed_of_map fun item => (hsame item _ rfl).2

theorem sound_fillLoot {gold : ℕ} {drops : List LootStoreItem} {owner : Looter}
    {group : Option (ℕ × List Looter)} (hfit : AllFit templates gold drops owner group) :
    ((new gold).fillLoot templates drops owner group).Sound := by
  have hdropped : (drops.foldl (addItem templates) (new gold)).Dropped :=
    foldl_keeps (fun _ item h => h.addItem item) drops (dropped_new gold)
  unfold fillLoot
  unfold AllFit at hfit
  cases group with
  | none => exact (hdropped.filled.player hfit).toSound
  | some group =>
    have hfilled : ({ drops.foldl (addItem templates) (new gold) with
        roundRobinPlayer := some owner.guid } : Loot).Filled :=
      Dropped.filled ⟨hdropped.quest, hdropped.ffa, hdropped.handed, hdropped.counts, hdropped.size,
        hdropped.fresh⟩
    have hkeeps : ∀ (l : Loot) (p : Looter), l.Filled → l.Fits p →
        (l.fillNotNormalLootFor templates p).Filled := fun _ _ h hfits => h.player hfits
    exact (foldl_keeps_of_allAlong hkeeps hfilled hfit).toSound.markUnderThreshold group.1

/-! ## Awards -/

def Award.slot : Award → ℕ
  | .win slot _ _ => slot
  | .give slot _ _ _ => slot

/-- Whether a win or a gift hands its item out. -/
def hands (l : Loot) : Award → Bool
  | .win slot _ canStore => (l.itemAt slot).isSome && canStore
  | .give slot eligible canStore allowed => eligible &&
      (l.itemAt slot).any fun item => canStore && (!item.followLootRules || allowed)

/-- What is handed out is one unit: an item for one player that is not looted yet and was counted. -/
def HandsSingle (l : Loot) (a : Award) : Prop := l.hands a = true → l.Single a.slot

instance (l : Loot) (a : Award) : Decidable (HandsSingle l a) :=
  inferInstanceAs (Decidable (l.hands a = true → l.Single a.slot))

/-- The counter of a loot is right: it is the number of what can still be taken, the loot is over when
there is nothing left, and no item for one player was handed out twice. -/
structure Exact (l : Loot) : Prop where
  counts : l.unlootedCount = l.outstanding
  ended : l.isLooted = true ↔ l.gold = 0 ∧ l.outstanding = 0
  once : ∀ place item, l.itemAt place = some item → item.freeForAll = false → l.handed.count place ≤ 1

theorem Sound.right (h : l.Sound) : l.Exact where
  counts := h.counts
  ended := by
    unfold isLooted
    rw [h.counts]
    simp
  once place item hitem hone := by
    rw [h.handed place item hitem hone]
    split <;> omega

theorem award_cases (l : Loot) (a : Award) :
    (l.hands a = true ∧ ∃ f : LootItem → LootItem, (∀ item, (f item).freeForAll = item.freeForAll) ∧
      l.award a = l.handOut a.slot f) ∨
    (l.hands a = false ∧ ∃ f : LootItem → LootItem, (∀ item, (f item).freeForAll = item.freeForAll ∧
        (f item).isLooted = item.isLooted ∧ waits (f item) = waits item) ∧
      l.award a = l.modifyAt a.slot f) ∨
    (l.hands a = false ∧ l.award a = l) := by
  cases a with
  | win slot winner canStore =>
    unfold award hands
    dsimp only
    cases hitem : l.itemAt slot with
    | none => exact .inr (.inr ⟨rfl, rfl⟩)
    | some item =>
      cases canStore with
      | true => exact .inl ⟨rfl, id, fun _ => rfl, rfl⟩
      | false =>
        let f : LootItem → LootItem := fun item =>
          { item with
            isBlocked := false
            rollWinnerGuid := some winner }
        exact .inr (.inl ⟨rfl, f, fun _ => ⟨rfl, rfl, rfl⟩, rfl⟩)
  | give slot eligible canStore allowed =>
    unfold award hands
    dsimp only
    cases eligible with
    | false => exact .inr (.inr ⟨rfl, rfl⟩)
    | true =>
      cases hitem : l.itemAt slot with
      | none => exact .inr (.inr ⟨rfl, rfl⟩)
      | some item =>
        by_cases hrefused : (!canStore || item.followLootRules && !allowed) = true
        · refine .inr (.inr ⟨?_, if_pos hrefused⟩)
          cases canStore <;> cases hrules : item.followLootRules <;> cases allowed <;>
            simp_all
        · let f : LootItem → LootItem := fun item => { item with count := 0 }
          refine .inl ⟨?_, f, fun _ => rfl, if_neg hrefused⟩
          cases canStore <;> cases hrules : item.followLootRules <;> cases allowed <;>
            simp_all

theorem Sound.award (h : l.Sound) {a : Award} (hs : HandsSingle l a) : (l.award a).Sound := by
  rcases award_cases l a with ⟨hhands, f, hffa, heq⟩ | ⟨-, f, hf, heq⟩ | ⟨-, heq⟩
  · rw [heq]
    exact h.handOut (hs hhands) hffa
  · rw [heq]
    have hkeep : (l.modifyAt a.slot f).unlootedCount = l.unlootedCount ∧
        (l.modifyAt a.slot f).playerQuestItems = l.playerQuestItems ∧
        (l.modifyAt a.slot f).playerFFAItems = l.playerFFAItems ∧
        (l.modifyAt a.slot f).handed = l.handed := by
      unfold modifyAt
      split <;> exact ⟨rfl, rfl, rfl, rfl⟩
    refine ⟨?_, ?_, ?_, ?_, ?_⟩
    · rw [hkeep.1, outstanding_modifyAt (fun item => (hf item).1) (fun item => (hf item).2.1)
        fun item => (hf item).2.2]
      exact h.counts
    · rw [hkeep.1]
      exact h.small
    · rw [hkeep.2.1]
      exact h.questKeys
    · rw [hkeep.2.2.1]
      exact h.ffaKeys
    · refine h.handed_of_same hkeep.2.2.2 fun place item hitem => ?_
      rw [itemAt_modifyAt] at hitem
      split at hitem
      · obtain ⟨old, hold, rfl⟩ := Option.map_eq_some_iff.mp hitem
        exact ⟨old, hold, (hf old).1, (hf old).2.1⟩
      · exact ⟨item, hitem, rfl, rfl⟩
  · rw [heq]
    exact h

/-- Only handing out one unit leaves the counter right. -/
theorem Sound.handsSingle (h : l.Sound) {a : Award} (hright : (l.award a).Exact) : HandsSingle l a := by
  intro hhands
  by_contra hnot
  rcases award_cases l a with ⟨-, f, hffa, heq⟩ | ⟨hnone, -⟩ | ⟨hnone, -⟩
  · have hcounts := hright.counts
    rw [heq] at hcounts
    have hsame : (l.handOut a.slot f).outstanding = l.outstanding := outstanding_of_not_single hnot hffa
    have hdec : (l.handOut a.slot f).unlootedCount = decU8 l.unlootedCount := by
      unfold Loot.handOut modifyAt
      split <;> rfl
    rw [hsame, hdec, ← h.counts] at hcounts
    unfold decU8 at hcounts
    omega
  · rw [hnone] at hhands
    cases hhands
  · rw [hnone] at hhands
    cases hhands

/-- **When the counter of a loot is exact.** Filled for players who fit, with any items, a loot has the right
counter after each win and gift just if each of them that hands an item out hands out one unit. -/
theorem exact_iff_single (templates : ItemTemplates) (gold : ℕ) (drops : List LootStoreItem)
    (owner : Looter) (group : Option (ℕ × List Looter))
    (hfit : AllFit templates gold drops owner group) (awards : List Award) :
    (∀ l, l <+: awards → (l.foldl award ((new gold).fillLoot templates drops owner group)).Exact) ↔
      AllAlong award HandsSingle ((new gold).fillLoot templates drops owner group) awards :=
  always_iff_allAlong (fun _ _ h hs => h.award hs) (fun _ h => h.right)
    (fun _ _ h hright => h.handsSingle hright) (sound_fillLoot hfit) awards

/-- Item 1 is for one player, item 2 for everybody, item 3 a quest item. -/
def someTemplates : ItemTemplates := fun entry =>
  if entry = 0 then none
  else some ⟨5, decide (entry = 2), false, 3⟩

/-- A member of a group with a master looter. -/
def member (guid : ℕ) : Looter :=
  ⟨guid, some (.masterLoot, 1), true, fun _ => true, fun _ _ => true, fun _ => true⟩

instance (templates : ItemTemplates) (gold : ℕ) (drops : List LootStoreItem) (owner : Looter)
    (group : Option (ℕ × List Looter)) : Decidable (AllFit templates gold drops owner group) := by
  cases group with
  | none =>
    exact inferInstanceAs (Decidable (Fits (drops.foldl (addItem templates) (new gold))
      { owner with presentAtLooting := true }))
  | some group =>
    exact inferInstanceAs (Decidable (AllAlong (fillNotNormalLootFor templates) Fits
      { drops.foldl (addItem templates) (new gold) with roundRobinPlayer := some owner.guid } group.2))

/-- Two members, and one gift of an item with a condition. -/
theorem exact_iff_single_of_two :
    (∀ l, l <+: [.give 1 true true true] → (l.foldl award ((new 0).fillLoot someTemplates
        [⟨1, false, [], 5⟩, ⟨1, false, [7], 5⟩, ⟨2, false, [], 5⟩, ⟨3, true, [], 1⟩] (member 1)
        (some (2, [member 1, member 2])))).Exact) ↔
      AllAlong award HandsSingle ((new 0).fillLoot someTemplates
        [⟨1, false, [], 5⟩, ⟨1, false, [7], 5⟩, ⟨2, false, [], 5⟩, ⟨3, true, [], 1⟩] (member 1)
        (some (2, [member 1, member 2]))) [.give 1 true true true] :=
  exact_iff_single someTemplates 0 _ (member 1) (some (2, [member 1, member 2])) (by decide +kernel) _

/-- The master looter gives the only item of a loot twice: the counter goes from none to 255, the loot is
not over with nothing left in it, and the item was handed out twice. And sixteen items for everybody,
filled for sixteen members, are 256 units, which the counter takes for none. -/
theorem not_exact_of_given_twice :
    (∃ l : Loot, l = [Award.give 0 true true true, .give 0 true true true].foldl award
        ((new 0).fillLoot someTemplates [⟨1, false, [], 5⟩] (member 1) (some (2, [member 1, member 2]))) ∧
      l.unlootedCount = 255 ∧ l.outstanding = 0 ∧ l.isLooted = false ∧ l.handed = [0, 0]) ∧
    ∃ l : Loot, l = (new 0).fillLoot someTemplates (List.replicate 16 ⟨2, false, [], 5⟩) (member 1)
        (some (2, (List.range 16).map member)) ∧
      l.unlootedCount = 0 ∧ l.outstanding = 256 ∧ l.isLooted = true :=
  ⟨⟨_, rfl, by decide +kernel⟩, ⟨_, rfl, by decide +kernel⟩⟩

end Sunstrider.Loots.Loot
