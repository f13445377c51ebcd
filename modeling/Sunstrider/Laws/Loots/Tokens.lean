import Sunstrider.Laws.Loots.Filling
import Sunstrider.Lib.Run

/-!
# Currency tokens, and one player

Storing currency tokens takes as much from the counter as from the units (`Storing.token`), so filling a
loot for a player who fits keeps the counter exact (`Filled.player`).
-/

namespace Sunstrider.Loots.Loot

open Lib (decU8 decU8_eq replaceKey)

variable {l : Loot} {p : Looter} {place : ℕ}

/-! ## Storing currency tokens -/

/-- What holds of the lists of a player while tokens are stored for him. -/
structure Storing (l : Loot) (p : Looter) : Prop extends Filled l where
  steady : ∀ i item, l.items[i]? = some item → item.freeForAll = true →
    p.allowedAt i item = true → p.allowed item = true
  ffaList : ∀ i item, l.items[i]? = some item → ffaAllowed p item = true →
    ∃ ql, listOf l.playerFFAItems p.guid = some ql ∧ i ∈ ql.map NotNormalLootItem.index
  ffaIndex : ∀ ql, listOf l.playerFFAItems p.guid = some ql →
    (ql.map NotNormalLootItem.index).Nodup
  questIndex : ∀ ql, listOf l.playerQuestItems p.guid = some ql →
    (ql.map NotNormalLootItem.index).Nodup
  questOwn : ∀ ql, listOf l.playerQuestItems p.guid = some ql → ∀ e ∈ ql, e.isLooted = false →
    ∀ item, l.questItems[e.index]? = some item → item.freeForAll = false → item.isLooted = false

theorem storeLootItem_cases (l : Loot) (guid slot : ℕ) (allowed : LootItem → Bool) (canStore : Bool) :
    l.storeLootItem guid slot allowed canStore = l ∨
      ∃ place e item, l.lootItemInSlot guid slot = some (place, e, false) ∧
        l.itemAt place = some item ∧
        l.storeLootItem guid slot allowed canStore =
          l.takeOut guid (decide (l.items.length ≤ slot)) place e item := by
  unfold storeLootItem
  cases hslot : l.lootItemInSlot guid slot with
  | none => exact .inl rfl
  | some found =>
    obtain ⟨place, e, looted⟩ := found
    cases hitem : l.itemAt place with
    | none =>
      left
      simp only [hitem]
    | some item =>
      simp only [hitem]
      split
      · exact .inl rfl
      · next hlooted =>
        split
        · exact .inl rfl
        · split
          · exact .inl rfl
          · split
            · exact .inl rfl
            · split
              · exact .inl rfl
              · rw [Bool.not_eq_true] at hlooted
                subst hlooted
                exact .inr ⟨place, e, item, rfl, hitem, rfl⟩

theorem count_append_handed (handed : List ℕ) (place i : ℕ) :
    (handed ++ [place]).count i = handed.count i + if i = place then 1 else 0 := by
  by_cases h : i = place
  · simp [h]
  · simp [h, Ne.symm h]

theorem Sound.decU8_add_one (h : l.Sound) (hpos : 0 < l.outstanding) :
    decU8 l.unlootedCount + 1 = l.unlootedCount := by
  have hcounts := h.counts
  have hsmall := h.small
  have hsucc : l.unlootedCount = l.unlootedCount - 1 + 1 := by omega
  rw [hsucc, decU8_eq (by omega)]

variable {item : LootItem}

/-- **A unit of an item that everybody may take is handed out**, and the counter stays exact. -/
theorem Sound.takeUnit (h : l.Sound) (quest ffa : NotNormalLootItemMap)
    (hat : l.itemAt place = some item) (hffa : item.freeForAll = true)
    (hunits : ({ l with playerQuestItems := quest, playerFFAItems := ffa } : Loot).outstanding + 1 =
      l.outstanding)
    (hquest : quest.map Prod.fst = l.playerQuestItems.map Prod.fst)
    (hffaKeys : ffa.map Prod.fst = l.playerFFAItems.map Prod.fst) :
    ({ l with
      playerQuestItems := quest
      playerFFAItems := ffa
      unlootedCount := decU8 l.unlootedCount
      handed := l.handed ++ [place] } : Loot).Sound := by
  have hcount := h.decU8_add_one (by omega)
  have hcounts := h.counts
  have hsmall := h.small
  refine ⟨?_, ?_, ?_, ?_, ?_⟩
  · show decU8 l.unlootedCount = Loot.outstanding { l with playerQuestItems := quest, playerFFAItems := ffa }
    omega
  · show decU8 l.unlootedCount < 2 ^ 8
    omega
  · exact hquest ▸ h.questKeys
  · exact hffaKeys ▸ h.ffaKeys
  · intro i it hit hone
    have hne : i ≠ place := by
      rintro rfl
      rw [Option.some.inj (hit.symm.trans hat), hffa] at hone
      cases hone
    show (l.handed ++ [place]).count i = _
    rw [count_append_handed, if_neg hne, add_zero]
    exact h.handed i it hit hone

variable {e : NotNormalLootItem} {ql : List NotNormalLootItem}

theorem Storing.takeFFA (h : l.Storing p) {slot : ℕ} (hlt : slot < l.items.length)
    (hitem : l.items[slot]? = some item) (hffa : item.freeForAll = true)
    (hql : listOf l.playerFFAItems p.guid = some ql) (he : e ∈ ql)
    (hlooted : e.isLooted = false) : (l.takeOut p.guid false slot (some e) item).Storing p := by
  have htake : l.takeOut p.guid false slot (some e) item = { l with
      playerFFAItems := markLooted l.playerFFAItems p.guid e.index
      unlootedCount := decU8 l.unlootedCount
      handed := l.handed ++ [slot] } := by
    unfold takeOut
    simp only [Bool.false_eq_true, if_false, hffa, if_true]
  have hunits : units (fun e => !e.isLooted) (markLooted l.playerFFAItems p.guid e.index) + 1 =
      units (fun e => !e.isLooted) l.playerFFAItems := by
    have hmark := units_markLooted h.ffaKeys hql (h.ffaIndex ql hql) he
      (p := fun e => !e.isLooted) rfl
    rwa [hlooted] at hmark
  have hat : l.itemAt slot = some item := by
    unfold itemAt
    rw [if_neg (not_le.mpr hlt), hitem]
  have hsound := h.toSound.takeUnit l.playerQuestItems (markLooted l.playerFFAItems p.guid e.index)
    hat hffa ?_ rfl (map_fst_markLooted ..)
  have hlist := listOf_markLooted h.ffaKeys hql e.index
  rw [htake]
  refine ⟨⟨hsound, h.size, h.blocked⟩, h.steady, ?_, ?_, h.questIndex, h.questOwn⟩
  · intro i it hit hallowed
    obtain ⟨ql', hql', hmem⟩ := h.ffaList i it hit hallowed
    rw [hql] at hql'
    obtain rfl := Option.some.inj hql'
    exact ⟨_, hlist, by rwa [Lib.map_key_replaceKey]⟩
  · intro ql' hql'
    rw [hlist] at hql'
    obtain rfl := Option.some.inj hql'
    rw [Lib.map_key_replaceKey]
    exact h.ffaIndex ql hql
  · unfold outstanding
    dsimp only
    omega

theorem Single.itemAt {place : ℕ} (h : l.Single place) : ∃ item, l.itemAt place = some item ∧
    item.freeForAll = false ∧ item.isLooted = false := by
  unfold Loot.itemAt
  rcases h with ⟨hlt, item, hitem, hwaits⟩ | ⟨hle, hsingle, -⟩
  · rw [if_neg (not_le.mpr hlt)]
    refine ⟨item, hitem, ?_⟩
    unfold waits at hwaits
    simp only [Bool.and_eq_true, Bool.not_eq_true'] at hwaits
    exact hwaits.1
  · rw [if_pos hle]
    unfold isSingle at hsingle
    cases hitem : l.questItems[place - l.items.length]? with
    | none =>
      rw [hitem] at hsingle
      cases hsingle
    | some item =>
      rw [hitem] at hsingle
      exact ⟨item, rfl, by simpa using hsingle⟩

/-- **An item that is one unit is handed out**, and the counter stays exact. -/
theorem Sound.handOut (h : l.Sound) (hs : l.Single place) {f : LootItem → LootItem}
    (hffa : ∀ item, (f item).freeForAll = item.freeForAll) : (l.handOut place f).Sound := by
  have hunit : (l.handOut place f).outstanding + 1 = l.outstanding := outstanding_handedOut hs hffa
  have hcounts := h.counts
  have hsmall := h.small
  have hcount := h.decU8_add_one (by omega)
  have hdec : (l.handOut place f).unlootedCount = decU8 l.unlootedCount := by
    unfold Loot.handOut modifyAt
    split <;> rfl
  have hkeys : (l.handOut place f).playerQuestItems = l.playerQuestItems ∧
      (l.handOut place f).playerFFAItems = l.playerFFAItems := by
    unfold Loot.handOut modifyAt
    split <;> exact ⟨rfl, rfl⟩
  have hhanded : (l.handOut place f).handed = l.handed ++ [place] := by
    unfold Loot.handOut modifyAt
    split <;> rfl
  refine ⟨by omega, by omega, ?_, ?_, fun i it hit hone => ?_⟩
  · rw [hkeys.1]
    exact h.questKeys
  · rw [hkeys.2]
    exact h.ffaKeys
  · have hit : (l.modifyAt place fun item => { f item with isLooted := true }).itemAt i = some it := hit
    rw [itemAt_modifyAt] at hit
    rw [hhanded, count_append_handed]
    by_cases hi : i = place
    · subst hi
      rw [if_pos rfl] at hit
      obtain ⟨item, hitem, hone', hlooted⟩ := hs.itemAt
      rw [hitem] at hit
      cases hit
      rw [h.handed i item hitem hone', hlooted]
      simp
    · rw [if_neg hi] at hit
      rw [if_neg hi, add_zero]
      exact h.handed i it hit hone

/-- An entry of a player's quest list, marked: for an item of which there is one for all this takes no
unit away. -/
theorem questUnits_markLooted (h : l.Storing p) (hql : listOf l.playerQuestItems p.guid = some ql)
    (he : e ∈ ql) (hlooted : e.isLooted = false) :
    questUnits l.questItems (markLooted l.playerQuestItems p.guid e.index) +
        (if isFFA l.questItems e.index then 1 else 0) =
      questUnits l.questItems l.playerQuestItems := by
  have hmark := units_markLooted h.questKeys hql (h.questIndex ql hql) he
    (p := fun e => !e.isLooted && isFFA l.questItems e.index) rfl
  have hlisted : listed (markLooted l.playerQuestItems p.guid e.index) = listed l.playerQuestItems :=
    funext fun i => listed_markLooted h.questKeys p.guid e.index i
  rw [hlooted, Bool.not_false, Bool.true_and] at hmark
  unfold questUnits
  rw [hlisted]
  omega

theorem mem_marked {e' : NotNormalLootItem}
    (h : e' ∈ replaceKey NotNormalLootItem.index ⟨e.index, true⟩ ql) (hlooted : e'.isLooted = false)
    : e' ∈ ql ∧ e'.index ≠ e.index := by
  rcases Lib.mem_replaceKey h with rfl | h
  · cases hlooted
  · exact h

theorem Storing.takeQuest (h : l.Storing p) {item : LootItem}
    (hql : listOf l.playerQuestItems p.guid = some ql) (he : e ∈ ql) (hlooted : e.isLooted = false)
    (hitem : l.questItems[e.index]? = some item) :
    (l.takeOut p.guid true (l.items.length + e.index) (some e) item).Storing p := by
  have hlist := listOf_markLooted h.questKeys hql e.index
  have hunits := questUnits_markLooted h hql he hlooted
  have hcounts := h.counts
  have hsmall := h.small
  let marked : Loot := { l with playerQuestItems := markLooted l.playerQuestItems p.guid e.index }
  have hkeys : (marked.playerQuestItems.map Prod.fst).Nodup := by
    show ((markLooted l.playerQuestItems p.guid e.index).map Prod.fst).Nodup
    rw [map_fst_markLooted]
    exact h.questKeys
  have hlisted : ∀ i, listed marked.playerQuestItems i = listed l.playerQuestItems i :=
    fun i => listed_markLooted h.questKeys p.guid e.index i
  have hindex : ∀ ql', listOf marked.playerQuestItems p.guid = some ql' →
      (ql'.map NotNormalLootItem.index).Nodup := by
    intro ql' hql'
    rw [hlist] at hql'
    obtain rfl := Option.some.inj hql'
    rw [Lib.map_key_replaceKey]
    exact h.questIndex ql hql
  have hown : ∀ ql', listOf marked.playerQuestItems p.guid = some ql' → ∀ e' ∈ ql', e'.isLooted = false →
      e' ∈ ql ∧ e'.index ≠ e.index := by
    intro ql' hql' e' he' hlooted'
    rw [hlist] at hql'
    obtain rfl := Option.some.inj hql'
    exact mem_marked he' hlooted'
  cases hffa : item.freeForAll with
  | true =>
    have hisFFA : isFFA l.questItems e.index = true := by
      unfold isFFA
      rw [hitem]
      exact hffa
    have htake : l.takeOut p.guid true (l.items.length + e.index) (some e) item = { marked with
        unlootedCount := decU8 l.unlootedCount
        handed := l.handed ++ [l.items.length + e.index] } := by
      unfold takeOut
      simp only [if_true, hffa]
      rfl
    rw [hisFFA, if_pos rfl] at hunits
    have hat : l.itemAt (l.items.length + e.index) = some item := by
      unfold Loot.itemAt
      rw [if_pos (Nat.le_add_right ..), Nat.add_sub_cancel_left, hitem]
    have hsound := h.toSound.takeUnit marked.playerQuestItems l.playerFFAItems hat hffa ?_
      (map_fst_markLooted ..) rfl
    rw [htake]
    refine ⟨⟨hsound, h.size, ?_⟩, h.steady, h.ffaList, h.ffaIndex, hindex, ?_⟩
    · intro i it hit hone hblocked
      exact (hlisted i).trans (h.blocked i it hit hone hblocked)
    · intro ql' hql' e' he' hlooted' it hit hone
      exact h.questOwn ql hql e' (hown ql' hql' e' he' hlooted').1 hlooted' it hit hone
    · show l.items.countP waits + units (fun e => !e.isLooted) l.playerFFAItems +
        questUnits l.questItems (markLooted l.playerQuestItems p.guid e.index) + 1 = _
      unfold outstanding
      omega
  | false =>
    have hisFFA : isFFA l.questItems e.index = false := by
      unfold isFFA
      rw [hitem]
      exact hffa
    have htake : l.takeOut p.guid true (l.items.length + e.index) (some e) item =
        marked.handOut (l.items.length + e.index) id := by
      unfold takeOut Loot.handOut modifyAt
      simp only [if_true, hffa, Bool.false_eq_true, if_false]
      split <;> rfl
    rw [hisFFA, if_neg Bool.false_ne_true, add_zero] at hunits
    have hsound : marked.Sound := by
      refine ⟨?_, hsmall, hkeys, h.ffaKeys, h.handed⟩
      show l.unlootedCount = _ + _ + questUnits l.questItems
        (markLooted l.playerQuestItems p.guid e.index)
      rw [hunits]
      exact hcounts
    have hsingle : marked.Single (l.items.length + e.index) := by
      refine .inr ⟨Nat.le_add_right .., ?_, ?_⟩
      · show isSingle l.questItems (l.items.length + e.index - l.items.length) = true
        rw [Nat.add_sub_cancel_left]
        unfold isSingle
        rw [hitem]
        show (!item.freeForAll && !item.isLooted) = true
        rw [hffa, h.questOwn ql hql e he hlooted item hitem hffa]
        rfl
      · show listed marked.playerQuestItems (l.items.length + e.index - l.items.length) = true
        rw [Nat.add_sub_cancel_left, hlisted]
        refine List.any_eq_true.mpr ⟨(p.guid, ql), mem_of_listOf hql, ?_⟩
        exact List.any_eq_true.mpr ⟨e, he, decide_eq_true rfl⟩
    have hquest : (marked.handOut (l.items.length + e.index) id).questItems =
        l.questItems.modify e.index fun item => { item with isLooted := true } := by
      unfold Loot.handOut modifyAt
      rw [if_pos (Nat.le_add_right ..)]
      show l.questItems.modify (l.items.length + e.index - l.items.length) _ = _
      rw [Nat.add_sub_cancel_left]
      rfl
    have hrest : (marked.handOut (l.items.length + e.index) id).items = l.items ∧
        (marked.handOut (l.items.length + e.index) id).playerFFAItems = l.playerFFAItems ∧
        (marked.handOut (l.items.length + e.index) id).playerQuestItems = marked.playerQuestItems := by
      unfold Loot.handOut modifyAt
      rw [if_pos (Nat.le_add_right ..)]
      exact ⟨rfl, rfl, rfl⟩
    rw [htake]
    refine ⟨⟨hsound.handOut hsingle fun _ => rfl, ?_, ?_⟩, ?_, ?_, ?_, ?_, ?_⟩
    · rw [hrest.1]
      exact h.size
    · intro i it hit hone hblocked
      rw [hquest, List.getElem?_modify] at hit
      obtain ⟨old, hold, rfl⟩ := Option.map_eq_some_iff.mp hit
      rw [hrest.2.2, hlisted]
      refine h.blocked i old hold ?_ ?_
      · split at hone <;> exact hone
      · split at hblocked <;> exact hblocked
    · rw [hrest.1]
      exact h.steady
    · rw [hrest.1, hrest.2.1]
      exact h.ffaList
    · rw [hrest.2.1]
      exact h.ffaIndex
    · rw [hrest.2.2]
      exact hindex
    · rw [hrest.2.2, hquest]
      intro ql' hql' e' he' hlooted' it hit hone
      obtain ⟨hmem, hne⟩ := hown ql' hql' e' he' hlooted'
      rw [List.getElem?_modify] at hit
      obtain ⟨old, hold, rfl⟩ := Option.map_eq_some_iff.mp hit
      rw [if_neg hne.symm] at hone ⊢
      exact h.questOwn ql hql e' hmem hlooted' old hold hone

variable {templates : ItemTemplates}

/-- **Storing one token.** -/
theorem Storing.token (h : l.Storing p) (slot : ℕ) : (storeToken templates p l slot).Storing p := by
  unfold storeToken
  cases hat : l.itemAt slot with
  | none => exact h
  | some item =>
    dsimp only
    split
    · next hcheck =>
      simp only [Bool.and_eq_true, Bool.not_eq_true'] at hcheck
      obtain ⟨⟨⟨hlooted, hffa⟩, hallowedAt⟩, -⟩ := hcheck
      rcases storeLootItem_cases l p.guid slot (p.allowedAt slot) (p.canStore slot) with
        heq | ⟨place, e, it, hslot, hit, heq⟩
      · rw [heq]
        exact h
      · rw [heq]
        by_cases hlen : l.items.length ≤ slot
        · -- a quest item, by its place on the player's list
          rw [decide_eq_true hlen]
          unfold lootItemInSlot at hslot
          rw [if_pos hlen] at hslot
          cases hql : listOf l.playerQuestItems p.guid with
          | none =>
            rw [hql] at hslot
            cases hslot
          | some ql =>
            rw [hql] at hslot
            obtain ⟨entry, hentry, hfound⟩ := Option.map_eq_some_iff.mp hslot
            obtain ⟨rfl, hrest⟩ := Prod.mk.inj hfound
            obtain ⟨rfl, hentryLooted⟩ := Prod.mk.inj hrest
            unfold Loot.itemAt at hit
            rw [if_pos (Nat.le_add_right ..), Nat.add_sub_cancel_left] at hit
            exact h.takeQuest hql (List.mem_of_getElem? hentry) hentryLooted hit
        · rw [decide_eq_false hlen]
          unfold Loot.itemAt at hat
          rw [if_neg hlen] at hat
          have hallowed : ffaAllowed p item = true := by
            unfold ffaAllowed
            rw [hlooted, hffa, h.steady slot item hat hffa hallowedAt]
            rfl
          obtain ⟨ql, hql, hmem⟩ := h.ffaList slot item hat hallowed
          obtain ⟨entry, hentry, hindex⟩ := List.mem_map.mp hmem
          have hfound : (ql.find? fun entry => decide (entry.index = slot)) = some entry := by
            cases hfind : ql.find? fun entry => decide (entry.index = slot) with
            | none =>
              have hnot := List.find?_eq_none.mp hfind entry hentry
              simp [hindex] at hnot
            | some entry' =>
              obtain ⟨hentry', hindex'⟩ := Lib.find_spec hfind
              rw [Lib.eq_of_key (h.ffaIndex ql hql) hentry' hentry (hindex'.trans hindex.symm)]
          unfold lootItemInSlot at hslot
          rw [if_neg hlen, hat] at hslot
          dsimp only at hslot
          rw [hffa, if_pos rfl, hql] at hslot
          simp only [Option.bind_some, hfound, Option.map_some, Option.getD_some, Option.some.injEq,
            Prod.mk.injEq] at hslot
          obtain ⟨rfl, rfl, hentryLooted⟩ := hslot
          unfold Loot.itemAt at hit
          rw [if_neg hlen, hat] at hit
          cases hit
          exact h.takeFFA (not_le.mp hlen) hat hffa hql hentry hentryLooted
    · exact h

theorem listOf_of_withList {lists : NotNormalLootItemMap} {guid : ℕ} {ql' : List NotNormalLootItem}
    (hnone : listOf lists guid = none) (h : listOf (withList lists guid ql) guid = some ql') :
    ql' = ql := by
  rw [listOf_withList hnone] at h
  split at h
  · cases h
  · exact (Option.some.inj h).symm

/-- **Filling for a player.** -/
theorem Filled.player (h : l.Filled) (hfits : l.Fits p) : (l.fillNotNormalLootFor templates p).Filled := by
  have hroom := hfits.room
  unfold newUnits at hroom
  unfold fillNotNormalLootFor
  rw [hfits.noQuest, Option.isNone_none, if_pos rfl]
  have hq : QuestFilled l p (l.fillQuestLoot p) := questFilled h.size (by omega)
  have h1 : (l.fillQuestLoot p).Filled := h.questLoot hfits hq (by omega)
  generalize l.fillQuestLoot p = l1 at hq h1 ⊢
  dsimp only
  rw [hq.ffa, hfits.noFFA, Option.isNone_none, if_pos rfl]
  have hroom1 : l1.unlootedCount + l1.items.countP (ffaAllowed p) < 2 ^ 8 := by
    rw [hq.count, hq.items]
    omega
  have h2 := h1.ffaLoot (hq.ffa ▸ hfits.noFFA) hroom1
  have heq2 := fillFFALoot_eq hroom1
  generalize l1.fillFFALoot p = l2 at h2 heq2 ⊢
  have hconditional : l2.playerConditionalItems = l.playerConditionalItems := by
    rw [heq2]
    exact hq.conditional
  rw [hconditional, hfits.noConditional, Option.isNone_none, if_pos rfl]
  have hroom2 : l2.unlootedCount + l2.items.countP (newlyCounted p) < 2 ^ 8 := by
    rw [heq2]
    dsimp only
    rw [hq.count, hq.items]
    omega
  have h3 := h2.conditionalLoot hroom2
  have heq3 := fillConditionalLoot_eq hroom2
  generalize l2.fillConditionalLoot p = l3 at h3 heq3 ⊢
  have hitems2 : l2.items = l.items := by
    rw [heq2]
    exact hq.items
  have hitems : l3.items = l.items.map (counted p) := by
    rw [heq3, ← hitems2]
  have hffa : l3.playerFFAItems =
      withList l.playerFFAItems p.guid ((picks (ffaAllowed p) 0 l.items).map entry) := by
    rw [heq3, heq2]
    rw [hq.ffa, hq.items]
  have hquest : l3.playerQuestItems =
      withList l.playerQuestItems p.guid ((l.questTaken p).map entry) := by
    rw [heq3, heq2]
    exact hq.quest
  have hquestItems : l3.questItems = l1.questItems := by
    rw [heq3, heq2]
  have hstoring : l3.Storing p := by
    refine ⟨h3, ?_, ?_, ?_, ?_, ?_⟩
    · intro i item hitem hone hallowed
      rw [hitems, List.getElem?_map, Option.map_eq_some_iff] at hitem
      obtain ⟨old, hold, rfl⟩ := hitem
      have hsame : counted p old = old := by
        unfold counted
        rw [(counted_same p old).1] at hone
        rw [if_neg]
        unfold conditionalAllowed
        simp [hone]
      rw [hsame] at hone hallowed ⊢
      exact hfits.steady (old, i) (List.mem_zipIdx_iff_getElem?.mpr hold) hone hallowed
    · intro i item hitem hallowed
      rw [hitems, List.getElem?_map, Option.map_eq_some_iff] at hitem
      obtain ⟨old, hold, rfl⟩ := hitem
      have hone : old.freeForAll = true := by
        unfold ffaAllowed at hallowed
        rw [(counted_same p old).1] at hallowed
        simp only [Bool.and_eq_true] at hallowed
        exact hallowed.1.2
      have hsame : counted p old = old := by
        unfold counted
        rw [if_neg]
        unfold conditionalAllowed
        simp [hone]
      rw [hsame] at hallowed
      have hmem : (old, i) ∈ picks (ffaAllowed p) 0 l.items := mem_picks.mpr ⟨hold, hallowed⟩
      refine ⟨(picks (ffaAllowed p) 0 l.items).map entry, ?_, ?_⟩
      · rw [hffa, listOf_withList hfits.noFFA, if_neg]
        rw [List.map_eq_nil_iff]
        exact List.ne_nil_of_mem hmem
      · rw [map_index_entry]
        exact List.mem_map_of_mem (f := Prod.snd) hmem
    · intro ql hql
      rw [hffa] at hql
      rw [listOf_of_withList hfits.noFFA hql, map_index_entry]
      exact nodup_map_picks (ffaAllowed p) 0 l.items
    · intro ql hql
      rw [hquest] at hql
      rw [listOf_of_withList hfits.noQuest hql, map_index_entry]
      exact l.nodup_questTaken p
    · intro ql hql e he hlooted item hitem hone
      rw [hquest] at hql
      rw [listOf_of_withList hfits.noQuest hql] at he
      obtain ⟨x, hx, rfl⟩ := List.mem_map.mp he
      obtain ⟨hget, hallowed⟩ := mem_questTaken hx
      rw [hquestItems] at hitem
      obtain ⟨old, hold, -, hsame⟩ := hq.same hitem
      have hold : l.questItems[x.2]? = some old := hold
      rw [hget] at hold
      obtain rfl := Option.some.inj hold
      rw [hsame]
      unfold questAllowed at hallowed
      simpa using (Bool.and_eq_true_iff.mp hallowed).1
  split
  · have hkeeps : ∀ l : Loot, ∀ slot, l.Storing p → (storeToken templates p l slot).Storing p :=
      fun _ slot hl => hl.token slot
    have hall : ∀ slots : List ℕ, (slots.foldl (storeToken templates p) l3).Storing p := fun slots =>
      Lib.foldl_keeps (I := fun l : Loot => l.Storing p) hkeeps slots hstoring
    exact (hall _).toFilled
  · exact h3

end Sunstrider.Loots.Loot
