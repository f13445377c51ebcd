import Sunstrider.Lib.Map
import Sunstrider.Lib.Run
import Sunstrider.Loots.Loot
import Sunstrider.Loots.LootItemStorage

/-!
# Stored loot and the database

What the memory and the tables have of each container is the same as long as no item is removed of which
there are two of the same count: memory loses one of them, and the table loses both (`Sound.step`). The
conditions of an item are found again as long as it was made from the first entry without a group for its
item.
-/

namespace Sunstrider.LootItemStorage

open Sunstrider.Lib
open Sunstrider.LootMgr (LootStoreItem LootTemplate)

/-- The item loses nothing when it is written down and read again. -/
theorem StoredLootItem.new_lootItem {item : StoredLootItem} (h : item.count < 256) :
    StoredLootItem.new item.lootItem = item := by
  have hcount : (UInt8.ofNat item.count).toNat = item.count := by
    exact Nat.mod_eq_of_lt h
  rw [new, lootItem, hcount]

theorem StoredLootItem.count_new_lt (li : LootItem) : (StoredLootItem.new li).count < 256 :=
  li.count.toNat_lt

/-- An item of a stored loot as an item of a loot that nobody has looted from. -/
def LootItem.fresh (li : LootItem) : Loots.LootItem where
  itemid := li.itemid
  conditions := li.conditions
  rollWinnerGuid := none
  count := li.count.toNat
  isLooted := false
  isBlocked := li.isBlocked
  freeForAll := li.freeforall
  isUnderThreshold := li.isUnderthreshold
  isCounted := li.isCounted
  needsQuest := li.needsQuest
  followLootRules := li.followLootRules

/-- But for its conditions, the item is in a loot again what it was when it was stored. -/
theorem fresh_lootItem_new (li : LootItem) :
    (StoredLootItem.new li).lootItem.fresh = { li.fresh with conditions := [] } := by
  simp [StoredLootItem.new, StoredLootItem.lootItem, LootItem.fresh]

/-- To take out one of the elements that meet a condition is to take out all, where there are no two. -/
theorem eraseP_eq_filter_of_countP_le_one {α : Type} {p : α → Bool} {l : List α} (h : l.countP p ≤ 1) :
    l.eraseP p = l.filter fun a => !p a := by
  induction l with
  | nil => rfl
  | cons a l ih =>
    cases ha : p a with
    | true =>
      rw [List.countP_cons_of_pos ha] at h
      have hnone : l.countP p = 0 := by omega
      rw [List.eraseP_cons_of_pos ha, List.filter_cons_of_neg (by simp [ha])]
      refine (List.filter_eq_self.mpr fun b hb => ?_).symm
      simpa using List.countP_eq_zero.mp hnone b hb
    | false =>
      rw [List.countP_cons_of_neg (by simp [ha])] at h
      rw [List.eraseP_cons_of_neg (by simp [ha]), List.filter_cons_of_pos (by simp [ha]), ih h]

/-- To take out one element takes away one at most of those that are counted. -/
theorem countP_le_countP_eraseP_succ {α : Type} (p : α → Bool) (l : List α) :
    l.countP p ≤ (l.eraseP p).countP p + 1 := by
  induction l with
  | nil => exact Nat.zero_le _
  | cons a l ih =>
    cases ha : p a with
    | true => rw [List.eraseP_cons_of_pos ha, List.countP_cons_of_pos ha]
    | false =>
      rw [List.eraseP_cons_of_neg (by simp [ha]), List.countP_cons_of_neg (by simp [ha]),
        List.countP_cons_of_neg (by simp [ha])]
      exact ih

namespace Storage

variable {env : Env} {s : Storage}

/-! ## Containers -/

/-- The items of a container in memory. -/
def memItems (s : Storage) (c : ℕ) : List Kept := (containerOf s.lootItemStore c).lootItems

def memMoney (s : Storage) (c : ℕ) : ℕ := (containerOf s.lootItemStore c).money

/-- The items of a container in the table. -/
def dbItems (s : Storage) (c : ℕ) : List Kept :=
  (s.itemLootItems.filter fun row => row.1 = c).map Prod.snd

def dbMoney (s : Storage) (c : ℕ) : ℕ := (s.itemLootMoney.lookup c).getD 0

theorem containerOf_insert (store : AList fun _ : ℕ => StoredLootContainer) (c c' : ℕ)
    (container : StoredLootContainer) :
    containerOf (store.insert c container) c' = if c' = c then container else containerOf store c' := by
  rw [containerOf, lookup_insert_ite]
  split <;> rfl

theorem containerOf_erase (store : AList fun _ : ℕ => StoredLootContainer) (c c' : ℕ) :
    containerOf (store.erase c) c' = if c' = c then ⟨0, []⟩ else containerOf store c' := by
  rw [containerOf, lookup_erase_ite]
  split <;> rfl

variable {c : ℕ} {container : StoredLootContainer}

theorem containerOf_of_lookup {store : AList fun _ : ℕ => StoredLootContainer}
    (h : store.lookup c = some container) : containerOf store c = container := by
  rw [containerOf, h]
  rfl

theorem containerOf_of_none {store : AList fun _ : ℕ => StoredLootContainer}
    (h : store.lookup c = none) : containerOf store c = ⟨0, []⟩ := by
  rw [containerOf, h]
  rfl

/-! ## Statements -/

theorem dbItems_delItems (s : Storage) (c c' : ℕ) :
    (s.delItems c).dbItems c' = if c' = c then [] else s.dbItems c' := by
  rw [dbItems, delItems, List.filter_filter]
  split_ifs with h
  · subst h
    simp
  · rw [dbItems]
    congr 1
    refine List.filter_congr fun row _ => ?_
    by_cases hrow : row.1 = c'
    · simp [hrow, h]
    · simp [hrow]

theorem dbItems_delItem (s : Storage) (c itemId count c' : ℕ) :
    (s.delItem c itemId count).dbItems c' =
      if c' = c then (s.dbItems c').filter fun k => !k.Is itemId count else s.dbItems c' := by
  rw [dbItems, delItem, List.filter_filter]
  split_ifs with h
  · subst h
    rw [dbItems, List.filter_map, List.filter_filter]
    congr 1
    refine List.filter_congr fun row _ => ?_
    by_cases hrow : row.1 = c'
    · simp [hrow]
    · simp [hrow]
  · rw [dbItems]
    congr 1
    refine List.filter_congr fun row _ => ?_
    by_cases hrow : row.1 = c'
    · simp [hrow, h]
    · simp [hrow]

theorem insItems_spec (kept : List Kept) (s : Storage) (c : ℕ) :
    kept.foldl (fun s k => s.insItem c k) s =
      { s with itemLootItems := s.itemLootItems ++ kept.map fun k => (c, k) } := by
  induction kept generalizing s with
  | nil => simp
  | cons k kept ih =>
    rw [List.foldl_cons, ih, insItem]
    simp

theorem dbItems_append (s : Storage) (kept : List Kept) (c c' : ℕ) :
    dbItems { s with itemLootItems := s.itemLootItems ++ kept.map fun k => (c, k) } c' =
      if c' = c then s.dbItems c' ++ kept else s.dbItems c' := by
  rw [dbItems, List.filter_append, List.map_append]
  split_ifs with h
  · subst h
    congr 1
    rw [List.filter_map, List.map_map]
    simp [Function.comp_def]
  · have hnone : (kept.map fun k => (c, k)).filter (fun row => row.1 = c') = [] := by
      rw [List.filter_eq_nil_iff]
      rintro row hrow
      obtain ⟨k, -, rfl⟩ := List.mem_map.mp hrow
      simpa using Ne.symm h
    rw [hnone, List.map_nil, List.append_nil, dbItems]

/-! ## Loading -/

/-- An item that was written down and read again. -/
def reload (k : Kept) : Kept := ⟨.new k.item.lootItem, k.origin⟩

theorem containerOf_loadItems (rows : List (ℕ × Kept)) (store : AList fun _ : ℕ => StoredLootContainer)
    (c : ℕ) :
    containerOf (rows.foldl (fun store row =>
        let container := containerOf store row.1
        let k : Kept := ⟨.new row.2.item.lootItem, row.2.origin⟩
        store.insert row.1 { container with lootItems := container.lootItems ++ [k] }) store) c =
      { containerOf store c with
        lootItems := (containerOf store c).lootItems ++
          ((rows.filter fun row => row.1 = c).map Prod.snd).map reload } := by
  induction rows generalizing store with
  | nil => simp
  | cons row rows ih =>
    rw [List.foldl_cons, ih, containerOf_insert]
    by_cases hrow : row.1 = c
    · subst hrow
      simp [reload]
    · rw [if_neg (Ne.symm hrow), List.filter_cons_of_neg (by simpa using hrow)]

theorem containerOf_loadMoney {rows : List (Σ _ : ℕ, ℕ)} (hrows : rows.NodupKeys)
    (store : AList fun _ : ℕ => StoredLootContainer) (c : ℕ) :
    containerOf (rows.foldl (fun store row =>
        store.insert row.1 { containerOf store row.1 with money := row.2 }) store) c =
      { containerOf store c with money := (rows.dlookup c).getD (containerOf store c).money } := by
  induction rows generalizing store with
  | nil => rfl
  | cons row rows ih =>
    obtain ⟨k, v⟩ := row
    obtain ⟨hk, hrows⟩ := List.nodupKeys_cons.mp hrows
    rw [List.foldl_cons, ih hrows, containerOf_insert]
    by_cases hc : c = k
    · subst hc
      rw [if_pos rfl, List.dlookup_cons_eq, List.dlookup_eq_none.mpr hk]
      rfl
    · rw [if_neg hc, List.dlookup_cons_ne _ _ hc]

theorem memItems_loadStorageFromDB (s : Storage) (c : ℕ) :
    s.loadStorageFromDB.memItems c = (s.dbItems c).map reload := by
  rw [memItems, loadStorageFromDB]
  rw [containerOf_loadMoney s.itemLootMoney.nodupKeys, containerOf_loadItems]
  rfl

theorem memMoney_loadStorageFromDB (s : Storage) (c : ℕ) :
    s.loadStorageFromDB.memMoney c = s.dbMoney c := by
  rw [memMoney, loadStorageFromDB]
  rw [containerOf_loadMoney s.itemLootMoney.nodupKeys, containerOf_loadItems]
  rfl

/-! ## What is kept -/

/-- The item was made from an entry that has the conditions of the first entry without a group that the
template of the container has for the item, or no conditions where it has no such entry. -/
def Regains (env : Env) (c : ℕ) (k : Kept) : Prop :=
  ∃ lt, env.lootTemplatesItem.lookup (env.entry c) = some lt ∧
    ((lt.entries.find? fun e => e.itemid = k.item.itemId).map (·.conditions)).getD [] =
      k.origin.conditions

structure Sound (env : Env) (s : Storage) : Prop where
  items : ∀ c, (s.memItems c).Perm (s.dbItems c)
  money : ∀ c, s.memMoney c = s.dbMoney c
  /-- The counts that are written down have eight bits. -/
  count : ∀ c, ∀ k ∈ s.dbItems c, k.item.count < 256
  regains : ∀ c, ∀ k ∈ s.memItems c, Regains env c k

theorem sound_empty : empty.Sound env where
  items _ := .refl _
  money _ := rfl
  count _ _ hk := nomatch hk
  regains _ _ hk := nomatch hk

/-- An operation meets this condition where it neither removes one of two like items nor stores an item
whose conditions are not found again. -/
def Careful (env : Env) (s : Storage) : Op → Prop
  | .addNewStoredLoot containerID gold unlootedCount items allowedForPlayer =>
    isLooted gold unlootedCount = false → s.lootItemStore.lookup containerID = none →
      ∀ g ∈ storable env allowedForPlayer items, Regains env containerID ⟨.new g.item, g.origin⟩
  | .removeStoredLootItemForContainer containerId itemId count =>
    (s.memItems containerId).countP (Kept.Is itemId count) ≤ 1
  | _ => True

/-- What an operation on one container has written: the items in memory and in the table, and the money in
both. -/
structure Wrote (s t : Storage) (c : ℕ) (items rows : List Kept) (money row : ℕ) : Prop where
  memItems : ∀ c', t.memItems c' = if c' = c then items else s.memItems c'
  dbItems : ∀ c', t.dbItems c' = if c' = c then rows else s.dbItems c'
  memMoney : ∀ c', t.memMoney c' = if c' = c then money else s.memMoney c'
  dbMoney : ∀ c', t.dbMoney c' = if c' = c then row else s.dbMoney c'

theorem Wrote.sound {t : Storage} {items rows : List Kept} {money row : ℕ}
    (hw : s.Wrote t c items rows money row) (h : s.Sound env) (hitems : items.Perm rows)
    (hmoney : money = row) (hcount : ∀ k ∈ rows, k.item.count < 256)
    (hregains : ∀ k ∈ items, Regains env c k) : t.Sound env where
  items c' := by
    rw [hw.memItems, hw.dbItems]
    split_ifs with hc
    · exact hitems
    · exact h.items c'
  money c' := by
    rw [hw.memMoney, hw.dbMoney]
    split_ifs with hc
    · exact hmoney
    · exact h.money c'
  count c' := by
    rw [hw.dbItems]
    split_ifs with hc
    · exact hcount
    · exact h.count c'
  regains c' := by
    rw [hw.memItems]
    split_ifs with hc
    · exact hc ▸ hregains
    · exact h.regains c'

theorem wrote_removeStoredLootForContainer (s : Storage) (c : ℕ) :
    s.Wrote (s.removeStoredLootForContainer c) c [] [] 0 0 where
  memItems c' := by
    rw [memItems, removeStoredLootForContainer, delMoney, delItems]
    rw [containerOf_erase]
    split_ifs <;> rfl
  dbItems c' := dbItems_delItems s c c'
  memMoney c' := by
    rw [memMoney, removeStoredLootForContainer, delMoney, delItems]
    rw [containerOf_erase]
    split_ifs <;> rfl
  dbMoney c' := by
    rw [dbMoney, removeStoredLootForContainer, delMoney, delItems]
    rw [lookup_erase_ite]
    split_ifs <;> rfl

theorem wrote_removeStoredMoneyForContainer (h : s.lootItemStore.lookup c = some container) :
    s.Wrote (s.removeStoredMoneyForContainer c) c (s.memItems c) (s.dbItems c) 0 0 := by
  rw [removeStoredMoneyForContainer, h]
  dsimp only
  refine ⟨fun c' => ?_, fun c' => ?_, fun c' => ?_, fun c' => ?_⟩
  · rw [memItems, delMoney]
    rw [containerOf_insert]
    split_ifs with hc
    · rw [memItems, containerOf_of_lookup h]
    · rfl
  · split_ifs with hc
    · rw [hc]
      rfl
    · rfl
  · rw [memMoney, delMoney]
    rw [containerOf_insert]
    split_ifs <;> rfl
  · rw [dbMoney, delMoney]
    rw [lookup_erase_ite]
    split_ifs <;> rfl

theorem wrote_removeStoredLootItemForContainer (itemId count : ℕ)
    (h : s.lootItemStore.lookup c = some container) :
    s.Wrote (s.removeStoredLootItemForContainer c itemId count) c
      ((s.memItems c).eraseP (Kept.Is itemId count))
      ((s.dbItems c).filter fun k => !k.Is itemId count) (s.memMoney c) (s.dbMoney c) := by
  rw [removeStoredLootItemForContainer, h]
  dsimp only
  refine ⟨fun c' => ?_, fun c' => ?_, fun c' => ?_, fun c' => ?_⟩
  · rw [memItems, delItem]
    rw [containerOf_insert]
    split_ifs with hc
    · rw [memItems, containerOf_of_lookup h]
    · rfl
  · refine (dbItems_delItem _ c itemId count c').trans ?_
    split_ifs with hc
    · rw [hc]
      rfl
    · rfl
  · rw [memMoney, delItem]
    rw [containerOf_insert]
    split_ifs with hc
    · rw [memMoney, containerOf_of_lookup h]
    · rfl
  · split_ifs with hc
    · rw [hc]
      rfl
    · rfl

/-- The items that are written down from a loot. -/
def kept (env : Env) (allowedForPlayer : LootItem → Bool) (items : List Generated) : List Kept :=
  (storable env allowedForPlayer items).map fun g => ⟨.new g.item, g.origin⟩

theorem wrote_addNewStoredLoot (env : Env) {gold : ℕ} {unlootedCount : UInt8}
    (items : List Generated) (allowedForPlayer : LootItem → Bool)
    (hlooted : isLooted gold unlootedCount = false) (hnone : s.lootItemStore.lookup c = none) :
    s.Wrote (s.addNewStoredLoot env c gold unlootedCount items allowedForPlayer) c
      (kept env allowedForPlayer items) (kept env allowedForPlayer items) gold
      (if gold ≠ 0 then gold else s.dbMoney c) := by
  have hadd : s.addNewStoredLoot env c gold unlootedCount items allowedForPlayer =
      { s with
        lootItemStore := s.lootItemStore.insert c ⟨gold, kept env allowedForPlayer items⟩
        itemLootItems := (s.delItems c).itemLootItems ++
          (kept env allowedForPlayer items).map fun k => (c, k)
        itemLootMoney := if gold ≠ 0 then (s.itemLootMoney.erase c).insert c gold
          else s.itemLootMoney } := by
    rw [addNewStoredLoot, hlooted, hnone]
    simp only [Bool.false_eq_true, if_false, Option.isSome_none, insItems_spec]
    split_ifs <;> rfl
  rw [hadd]
  refine ⟨fun c' => ?_, fun c' => ?_, fun c' => ?_, fun c' => ?_⟩
  · rw [memItems]
    rw [containerOf_insert]
    split_ifs <;> rfl
  · refine (dbItems_append (s.delItems c) (kept env allowedForPlayer items) c c').trans ?_
    rw [dbItems_delItems]
    split_ifs with hc
    · rw [List.nil_append]
    · rfl
  · rw [memMoney]
    rw [containerOf_insert]
    split_ifs <;> rfl
  · rw [dbMoney]
    split_ifs with hgold hc hc
    · rw [hc, AList.lookup_insert]
      rfl
    · rw [AList.lookup_insert_ne hc, AList.lookup_erase_ne hc]
      rfl
    · rw [hc]
      rfl
    · rfl

/-! ## Steps -/

namespace Sound

theorem loadStorageFromDB (h : s.Sound env) : s.loadStorageFromDB.Sound env := by
  have hreload : ∀ c, s.loadStorageFromDB.memItems c = s.dbItems c := by
    intro c
    have hsame : (s.dbItems c).map reload = (s.dbItems c).map id :=
      List.map_congr_left fun k hk => by
        rw [reload, StoredLootItem.new_lootItem (h.count c k hk)]
        rfl
    rw [memItems_loadStorageFromDB, hsame, List.map_id]
  refine ⟨fun c => ?_, fun c => ?_, h.count, fun c k hk => ?_⟩
  · rw [hreload]
    exact .refl _
  · exact memMoney_loadStorageFromDB s c
  · rw [hreload] at hk
    exact h.regains c k ((h.items c).mem_iff.mpr hk)

theorem of_none (h : s.Sound env) (hnone : s.lootItemStore.lookup c = none) :
    s.dbItems c = [] ∧ s.dbMoney c = 0 := by
  have hitems := h.items c
  have hmoney := h.money c
  rw [memItems, containerOf_of_none hnone] at hitems
  rw [memMoney, containerOf_of_none hnone] at hmoney
  exact ⟨hitems.nil_eq.symm, hmoney.symm⟩

/-- **A careful operation keeps the memory and the tables the same.** -/
theorem step (h : s.Sound env) {op : Op} (hop : s.Careful env op) : (s.step env op).Sound env := by
  cases op with
  | addNewStoredLoot c gold unlootedCount items allowedForPlayer =>
    show (s.addNewStoredLoot env c gold unlootedCount items allowedForPlayer).Sound env
    cases hlooted : isLooted gold unlootedCount with
    | true =>
      rw [addNewStoredLoot, hlooted]
      exact h
    | false =>
      cases hlookup : s.lootItemStore.lookup c with
      | some container =>
        rw [addNewStoredLoot, hlooted, hlookup]
        exact h
      | none =>
        refine (wrote_addNewStoredLoot env items allowedForPlayer hlooted hlookup).sound h (.refl _) ?_ ?_ ?_
        · rw [(h.of_none hlookup).2]
          split_ifs with hgold
          · rfl
          · exact not_not.mp hgold
        · intro k hk
          obtain ⟨g, -, rfl⟩ := List.mem_map.mp hk
          exact StoredLootItem.count_new_lt g.item
        · intro k hk
          obtain ⟨g, hg, rfl⟩ := List.mem_map.mp hk
          exact hop hlooted hlookup g hg
  | removeStoredLootItemForContainer c itemId count =>
    show (s.removeStoredLootItemForContainer c itemId count).Sound env
    cases hlookup : s.lootItemStore.lookup c with
    | none =>
      rw [removeStoredLootItemForContainer, hlookup]
      exact h
    | some container =>
      have hsame : (s.memItems c).eraseP (Kept.Is itemId count) =
          (s.memItems c).filter fun k => !k.Is itemId count := eraseP_eq_filter_of_countP_le_one hop
      refine (wrote_removeStoredLootItemForContainer _ _ hlookup).sound h ?_ (h.money c) ?_ ?_
      · rw [hsame]
        exact (h.items c).filter _
      · exact fun k hk => h.count c k (List.mem_filter.mp hk).1
      · exact fun k hk => h.regains c k (List.eraseP_subset hk)
  | removeStoredMoneyForContainer c =>
    show (s.removeStoredMoneyForContainer c).Sound env
    cases hlookup : s.lootItemStore.lookup c with
    | none =>
      rw [removeStoredMoneyForContainer, hlookup]
      exact h
    | some container =>
      exact (wrote_removeStoredMoneyForContainer hlookup).sound h (h.items c) rfl (h.count c) (h.regains c)
  | removeStoredLootForContainer c =>
    exact (wrote_removeStoredLootForContainer s c).sound h (.refl _) rfl (fun k hk => nomatch hk)
      (fun k hk => nomatch hk)
  | loadStorageFromDB => exact h.loadStorageFromDB

end Sound

/-! ## What is loaded -/

/-- The item of loot that is made of a stored one, with the conditions found in a template. -/
def refound (lt : LootTemplate) (k : Kept) : LootItem :=
  { k.item.lootItem with conditions := (lt.copyConditions k.item.itemId).getD [] }

/-- The items that a container gives to the loot of its item. -/
def loadedItems (env : Env) (s : Storage) (c : ℕ) : List LootItem :=
  match env.lootTemplatesItem.lookup (env.entry c) with
  | none => []
  | some lt => (s.memItems c).map (refound lt)

theorem loadStoredLoot_items (lt : LootTemplate) (items : List Kept) (loot : Loot) :
    (items.foldl (fun loot k =>
      let li := k.item.lootItem
      let li := { li with conditions := (lt.copyConditions li.itemid).getD li.conditions }
      { loot with items := loot.items ++ [li], unlootedCount := loot.unlootedCount + 1 }) loot).items =
        loot.items ++ items.map (refound lt) ∧
    (items.foldl (fun loot k =>
      let li := k.item.lootItem
      let li := { li with conditions := (lt.copyConditions li.itemid).getD li.conditions }
      { loot with items := loot.items ++ [li], unlootedCount := loot.unlootedCount + 1 }) loot).gold =
        loot.gold := by
  induction items generalizing loot with
  | nil => simp
  | cons k items ih =>
    rw [List.foldl_cons]
    refine ⟨(ih _).1.trans ?_, (ih _).2⟩
    rw [List.map_cons, List.append_assoc]
    rfl

theorem loadStoredLoot_spec (env : Env) (loot : Loot)
    (h : (s.lootItemStore.lookup loot.containerID).isSome) :
    (s.loadStoredLoot env loot).1 = true ∧
      (s.loadStoredLoot env loot).2.gold = s.memMoney loot.containerID ∧
      (s.loadStoredLoot env loot).2.items = loot.items ++ loadedItems env s loot.containerID := by
  obtain ⟨container, hlookup⟩ := Option.isSome_iff_exists.mp h
  rw [loadStoredLoot, hlookup, loadedItems, memMoney, memItems, containerOf_of_lookup hlookup]
  dsimp only
  cases env.lootTemplatesItem.lookup (env.entry loot.containerID) with
  | none => exact ⟨rfl, rfl, (List.append_nil _).symm⟩
  | some lt =>
    obtain ⟨hitems, hgold⟩ := loadStoredLoot_items lt container.lootItems
      { loot with gold := container.money }
    exact ⟨rfl, hgold, hitems⟩

/-- What is asked of the storage: memory and tables have the same money and the same items of each
container, and what is loaded into the loot of an item that has a container is its money and its items,
with the conditions of the entries that they were made from. -/
structure Faithful (env : Env) (s : Storage) : Prop where
  items : ∀ c, ((s.memItems c).map Kept.item).Perm ((s.dbItems c).map Kept.item)
  money : ∀ c, s.memMoney c = s.dbMoney c
  loads : ∀ loot : Loot, (s.lootItemStore.lookup loot.containerID).isSome →
    (s.loadStoredLoot env loot).1 = true ∧
      (s.loadStoredLoot env loot).2.gold = s.memMoney loot.containerID ∧
      ∃ new, (s.loadStoredLoot env loot).2.items = loot.items ++ new ∧
        new.map (fun li => (StoredLootItem.new li, li.conditions)) =
          (s.memItems loot.containerID).map fun k => (k.item, k.origin.conditions)

theorem Sound.faithful (h : s.Sound env) : s.Faithful env where
  items c := (h.items c).map _
  money := h.money
  loads loot hsome := by
    obtain ⟨hloaded, hgold, hitems⟩ := loadStoredLoot_spec env loot hsome
    refine ⟨hloaded, hgold, _, hitems, ?_⟩
    rw [loadedItems]
    cases hlt : env.lootTemplatesItem.lookup (env.entry loot.containerID) with
    | none =>
      cases hmem : s.memItems loot.containerID with
      | nil => rfl
      | cons k items =>
        obtain ⟨lt, hsomeLt, -⟩ := h.regains loot.containerID k (by rw [hmem]; exact List.mem_cons_self)
        rw [hlt] at hsomeLt
        exact nomatch hsomeLt
    | some lt =>
      dsimp only
      rw [List.map_map]
      refine List.map_congr_left fun k hk => ?_
      obtain ⟨lt', hlt', hconditions⟩ := h.regains loot.containerID k hk
      obtain rfl : lt = lt' := Option.some.inj (hlt.symm.trans hlt')
      have hcount := h.count loot.containerID k ((h.items _).mem_iff.mp hk)
      exact Prod.ext (StoredLootItem.new_lootItem hcount) hconditions

theorem Faithful.regains (h : s.Faithful env) (hsome : (s.lootItemStore.lookup c).isSome) :
    ∀ k ∈ s.memItems c, Regains env c k := by
  intro k hk
  obtain ⟨-, -, new, hnew, hmap⟩ := h.loads ⟨c, 0, 0, []⟩ hsome
  have hitems := (loadStoredLoot_spec env ⟨c, 0, 0, []⟩ hsome).2.2
  obtain rfl : new = loadedItems env s c := hnew.symm.trans hitems
  rw [loadedItems] at hmap
  cases hlt : env.lootTemplatesItem.lookup (env.entry c) with
  | none =>
    rw [hlt] at hmap
    have hnil : s.memItems c = [] := List.map_eq_nil_iff.mp hmap.symm
    rw [hnil] at hk
    exact nomatch hk
  | some lt =>
    rw [hlt] at hmap
    rw [List.map_map] at hmap
    exact ⟨lt, hlt, congrArg Prod.snd (List.map_inj_left.mp hmap k hk)⟩

/-- An operation that leaves the storage as it should be is careful. -/
theorem careful_of_faithful {op : Op} (hop : (s.step env op).Faithful env) :
    s.Careful env op := by
  cases op with
  | addNewStoredLoot c gold unlootedCount items allowedForPlayer =>
    intro hlooted hnone g hg
    have hw := wrote_addNewStoredLoot env items allowedForPlayer hlooted hnone
    have hsome : ((s.addNewStoredLoot env c gold unlootedCount items
        allowedForPlayer).lootItemStore.lookup c).isSome := by
      rw [addNewStoredLoot, hlooted, hnone]
      simp
    refine hop.regains hsome _ ?_
    show _ ∈ (s.addNewStoredLoot env c gold unlootedCount items allowedForPlayer).memItems c
    rw [hw.memItems, if_pos rfl]
    exact List.mem_map_of_mem hg
  | removeStoredLootItemForContainer c itemId count =>
    cases hlookup : s.lootItemStore.lookup c with
    | none =>
      show (s.memItems c).countP (Kept.Is itemId count) ≤ 1
      rw [memItems, containerOf_of_none hlookup]
      exact Nat.zero_le 1
    | some container =>
      have hw := wrote_removeStoredLootItemForContainer itemId count hlookup
      have hitems := (hop.items c).countP_eq (StoredLootItem.Is itemId count)
      rw [show s.step env (.removeStoredLootItemForContainer c itemId count) =
        s.removeStoredLootItemForContainer c itemId count from rfl, hw.memItems, if_pos rfl, hw.dbItems,
        if_pos rfl, List.countP_map, List.countP_map] at hitems
      have hnone : ((s.dbItems c).filter fun k => !k.Is itemId count).countP (Kept.Is itemId count) = 0 := by
        refine List.countP_eq_zero.mpr fun k hk => ?_
        simpa using (List.mem_filter.mp hk).2
      have hmem : ((s.memItems c).eraseP (Kept.Is itemId count)).countP (Kept.Is itemId count) = 0 :=
        hitems.trans hnone
      have hle := countP_le_countP_eraseP_succ (Kept.Is itemId count) (s.memItems c)
      show (s.memItems c).countP (Kept.Is itemId count) ≤ 1
      omega
  | removeStoredMoneyForContainer c => trivial
  | removeStoredLootForContainer c => trivial
  | loadStorageFromDB => trivial

/-- **When stored loot survives**: at every moment of a run memory and tables agree and all loot is loaded as
it was, just if each operation of the run is careful. -/
theorem faithful_iff_careful (env : Env) (ops : List Op) :
    (∀ past, past <+: ops → (past.foldl (step env) empty).Faithful env) ↔
      AllAlong (step env) (Careful env) empty ops :=
  always_iff_allAlong (I := Sound env) (fun _ _ h hop => h.step hop) (fun _ h => h.faithful)
    (fun _ _ _ hop => careful_of_faithful hop) sound_empty ops

/-- A server on which every item is storable, and every container has one template. -/
def oneTemplate (lt : LootTemplate) : Env := ⟨AList.insert 2 lt ∅, fun _ => 2, fun _ => true⟩

/-- An entry for the item 5. -/
def entryOfFive (groupid : ℕ) (conditions : List ℕ) : LootStoreItem :=
  ⟨5, 0, 100, 1, false, groupid, 1, conditions⟩

/-- One item that is made from an entry. -/
def oneOf (e : LootStoreItem) : Generated :=
  ⟨⟨e.itemid, 1, false, false, false, false, false, e.needsQuest, 0, 0, e.conditions⟩, e, rfl⟩

/-- **Of two like items the removal of one takes both from the table**; and an item that was made from an
entry in a group loses its conditions. -/
theorem two_alike_not_faithful :
    ¬ ([.addNewStoredLoot 1 0 2 [oneOf (entryOfFive 0 []), oneOf (entryOfFive 0 [])] fun _ => true,
        .removeStoredLootItemForContainer 1 5 1].foldl
          (step (oneTemplate (LootTemplate.new.addEntry (entryOfFive 0 [])))) empty).Faithful
        (oneTemplate (LootTemplate.new.addEntry (entryOfFive 0 []))) ∧
    ¬ ([.addNewStoredLoot 1 0 1 [oneOf (entryOfFive 1 [9])] fun _ => true].foldl
          (step (oneTemplate (LootTemplate.new.addEntry (entryOfFive 1 [9])))) empty).Faithful
        (oneTemplate (LootTemplate.new.addEntry (entryOfFive 1 [9]))) := by
  refine ⟨fun h => ?_, fun h => ?_⟩
  · exact absurd (h.items 1).length_eq (by decide)
  · obtain ⟨lt, hlt, hconditions⟩ := h.regains (c := 1) rfl _ List.mem_cons_self
    obtain rfl := Option.some.inj hlt
    exact absurd hconditions (by decide)

end Storage

end Sunstrider.LootItemStorage
