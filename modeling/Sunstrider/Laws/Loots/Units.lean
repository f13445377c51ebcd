import Sunstrider.Loots.Loot

/-!
# The units of a loot

What can still be taken of a loot, counted without a bound (`Loot.outstanding`): an item for one player
once, an item for everybody once for each list that it is on, a quest item once it is on a list. Here is
how the number changes when a list is added, an entry is marked and an item is handed out.
-/

namespace Sunstrider.Loots.Loot

open Lib (countP_replaceKey eq_of_key find_spec map_key_replaceKey nodup_removeKey removeKey replaceKey
  sum_replaceKey)

variable {l : Loot} {lists : NotNormalLootItemMap} {guid place : ℕ} {ql : List NotNormalLootItem}

/-- An item of which there is one for all, and which is counted. -/
def waits (item : LootItem) : Bool :=
  !item.freeForAll && !item.isLooted && (item.conditions.isEmpty || item.isCounted)

/-- The entries of all lists that meet a condition. -/
def units (p : NotNormalLootItem → Bool) (lists : NotNormalLootItemMap) : ℕ :=
  (lists.map fun list => list.2.countP p).sum

def isFFA (questItems : List LootItem) (i : ℕ) : Bool := questItems[i]?.any (·.freeForAll)

def isSingle (questItems : List LootItem) (i : ℕ) : Bool :=
  questItems[i]?.any fun item => !item.freeForAll && !item.isLooted

/-- The item is on the list of a player. -/
def listed (lists : NotNormalLootItemMap) (i : ℕ) : Bool :=
  lists.any fun list => list.2.any fun entry => entry.index = i

/-- The units of quest items: those for everybody on each list, the others once. -/
def questUnits (questItems : List LootItem) (lists : NotNormalLootItemMap) : ℕ :=
  units (fun entry => !entry.isLooted && isFFA questItems entry.index) lists +
    (List.range questItems.length).countP fun i => listed lists i && isSingle questItems i

/-- **What can still be taken**, without a bound. -/
def outstanding (l : Loot) : ℕ :=
  l.items.countP waits + units (fun entry => !entry.isLooted) l.playerFFAItems +
    questUnits l.questItems l.playerQuestItems

/-! ## Counting -/

theorem countP_mem {idx : List ℕ} {n : ℕ} (hidx : idx.Nodup) (hlt : ∀ i ∈ idx, i < n)
    (q : ℕ → Bool) : (List.range n).countP (fun i => decide (i ∈ idx) && q i) = idx.countP q := by
  have hperm : ((List.range n).filter fun i => decide (i ∈ idx)).Perm idx := by
    refine (List.perm_ext_iff_of_nodup (List.nodup_range.filter _) hidx).mpr fun i => ?_
    rw [List.mem_filter, List.mem_range, decide_eq_true_iff]
    exact ⟨fun h => h.2, fun h => ⟨hlt i h, h⟩⟩
  rw [← hperm.countP_eq, List.countP_filter]
  exact List.countP_congr fun i _ => by simp [and_comm]

variable {α : Type}

theorem countP_or (p q : α → Bool) (l : List α) :
    l.countP (fun a => p a || q a) = l.countP p + l.countP fun a => !p a && q a := by
  induction l with
  | nil => rfl
  | cons a l ih =>
    rw [List.countP_cons, List.countP_cons, List.countP_cons, ih]
    cases p a <;> cases q a <;> simp <;> omega

theorem countP_lost {l : List ℕ} (hl : l.Nodup) {j : ℕ} (hj : j ∈ l) {p q : ℕ → Bool}
    (hp : p j = true) (hq : q j = false) (hother : ∀ i, i ≠ j → q i = p i) :
    l.countP q + 1 = l.countP p := by
  have hperm := List.perm_cons_erase hj
  have hrest : (l.erase j).countP q = (l.erase j).countP p := by
    refine List.countP_congr fun i hi => ?_
    have hne : i ≠ j := ((hl.mem_erase_iff).mp hi).1
    rw [hother i hne]
  rw [hperm.countP_eq, hperm.countP_eq, List.countP_cons, List.countP_cons, hrest, hp, hq]
  simp

theorem countP_modify_lost {l : List α} {i : ℕ} {a : α} (h : l[i]? = some a) {p : α → Bool}
    {f : α → α} (hp : p a = true) (hf : p (f a) = false) :
    (l.modify i f).countP p + 1 = l.countP p := by
  induction l generalizing i with
  | nil => simp at h
  | cons b l ih =>
    cases i with
    | zero =>
      obtain rfl : b = a := by simpa using h
      simp [List.modify_cons, hp, hf]
    | succ i =>
      have hrest := ih (i := i) (by simpa using h)
      rw [List.modify_cons, if_neg (Nat.succ_ne_zero i), Nat.add_sub_cancel, List.countP_cons,
        List.countP_cons]
      omega

theorem countP_modify_same {l : List α} {i : ℕ} {p : α → Bool} {f : α → α}
    (h : ∀ a, l[i]? = some a → p (f a) = p a) : (l.modify i f).countP p = l.countP p := by
  induction l generalizing i with
  | nil => simp
  | cons b l ih =>
    cases i with
    | zero =>
      have hb : p (f b) = p b := h b (by simp)
      simp [List.modify_cons, List.countP_cons, hb]
    | succ i =>
      have hrest := ih (i := i) fun a ha => h a (by simpa using ha)
      rw [List.modify_cons, if_neg (Nat.succ_ne_zero i), Nat.add_sub_cancel, List.countP_cons,
        List.countP_cons, hrest]

/-! ## Lists -/

theorem listOf_eq_none : listOf lists guid = none ↔ guid ∉ lists.map Prod.fst := by
  unfold listOf
  rw [Option.map_eq_none_iff, List.find?_eq_none, List.mem_map]
  constructor
  · rintro h ⟨list, hlist, rfl⟩
    exact h list hlist (by simp)
  · rintro h list hlist hguid
    exact h ⟨list, hlist, by simpa using hguid⟩

theorem mem_of_listOf (h : listOf lists guid = some ql) : (guid, ql) ∈ lists := by
  unfold listOf at h
  obtain ⟨list, hfind, rfl⟩ := Option.map_eq_some_iff.mp h
  obtain ⟨hmem, rfl⟩ := find_spec hfind
  exact hmem

theorem listOf_of_mem (hkeys : (lists.map Prod.fst).Nodup) (h : (guid, ql) ∈ lists) :
    listOf lists guid = some ql := by
  cases hlist : listOf lists guid with
  | none => exact absurd (List.mem_map_of_mem (f := Prod.fst) h) (listOf_eq_none.mp hlist)
  | some ql' =>
    have heq := eq_of_key hkeys (mem_of_listOf hlist) h rfl
    rw [(Prod.mk.inj heq).2]

theorem removeKey_of_listOf (h : listOf lists guid = none) : removeKey Prod.fst guid lists = lists := by
  refine List.filter_eq_self.mpr fun list hlist => ?_
  have hne : list.1 ≠ guid := fun heq => listOf_eq_none.mp h (heq ▸ List.mem_map_of_mem hlist)
  simpa using hne

theorem units_withList (h : listOf lists guid = none) (p : NotNormalLootItem → Bool)
    (ql : List NotNormalLootItem) : units p (withList lists guid ql) = units p lists + ql.countP p := by
  unfold withList
  split
  · next hempty => rw [hempty, List.countP_nil, add_zero]
  · rw [removeKey_of_listOf h]
    unfold units
    rw [List.map_cons, List.sum_cons, add_comm]

theorem listed_withList (h : listOf lists guid = none) (ql : List NotNormalLootItem) (i : ℕ) :
    listed (withList lists guid ql) i = (listed lists i || ql.any fun entry => entry.index = i) := by
  unfold withList listed
  split
  · next hempty => rw [hempty, List.any_nil, Bool.or_false]
  · rw [removeKey_of_listOf h, List.any_cons, Bool.or_comm]

theorem nodup_withList (h : (lists.map Prod.fst).Nodup) (ql : List NotNormalLootItem) :
    ((withList lists guid ql).map Prod.fst).Nodup := by
  unfold withList
  split
  · exact h
  · rw [List.map_cons, List.nodup_cons]
    refine ⟨fun hmem => ?_, nodup_removeKey h⟩
    obtain ⟨list, hlist, heq⟩ := List.mem_map.mp hmem
    exact (Lib.mem_removeKey.mp hlist).2 heq

theorem listOf_withList (h : listOf lists guid = none) :
    listOf (withList lists guid ql) guid = if ql = [] then none else some ql := by
  unfold withList
  split
  · exact h
  · unfold listOf
    rw [List.find?_cons_of_pos (by simp)]
    rfl

theorem listOf_markLooted (hkeys : (lists.map Prod.fst).Nodup) (h : listOf lists guid = some ql)
    (index : ℕ) : listOf (markLooted lists guid index) guid =
      some (replaceKey NotNormalLootItem.index ⟨index, true⟩ ql) := by
  unfold markLooted
  rw [h]
  refine listOf_of_mem ?_ ?_
  · rw [map_key_replaceKey]
    exact hkeys
  · exact List.mem_map.mpr ⟨(guid, ql), mem_of_listOf h, if_pos rfl⟩

theorem map_fst_markLooted (lists : NotNormalLootItemMap) (guid index : ℕ) :
    (markLooted lists guid index).map Prod.fst = lists.map Prod.fst := by
  unfold markLooted
  split
  · rfl
  · exact map_key_replaceKey ..

theorem units_markLooted (hkeys : (lists.map Prod.fst).Nodup) (h : listOf lists guid = some ql)
    (hindex : (ql.map NotNormalLootItem.index).Nodup) {entry : NotNormalLootItem} (he : entry ∈ ql)
    {p : NotNormalLootItem → Bool} (hmarked : p ⟨entry.index, true⟩ = false) :
    units p (markLooted lists guid entry.index) + (if p entry then 1 else 0) = units p lists := by
  let marked := replaceKey NotNormalLootItem.index ⟨entry.index, true⟩ ql
  have hql : marked.countP p + (if p entry then 1 else 0) = ql.countP p + 0 := by
    have hcount : marked.countP p + (if p entry then 1 else 0) =
        ql.countP p + if p ⟨entry.index, true⟩ then 1 else 0 := countP_replaceKey p hindex he rfl
    rw [hmarked, if_neg Bool.false_ne_true] at hcount
    exact hcount
  have hlists : ((replaceKey Prod.fst (guid, marked) lists).map fun list => list.2.countP p).sum +
      ql.countP p = (lists.map fun list => list.2.countP p).sum + marked.countP p := by
    have hkey : Prod.fst (guid, marked) = Prod.fst (guid, ql) := rfl
    exact sum_replaceKey (fun list => list.2.countP p) hkeys (mem_of_listOf h) hkey
  unfold markLooted units
  rw [h]
  show ((replaceKey Prod.fst (guid, marked) lists).map fun list => list.2.countP p).sum + _ = _
  omega

theorem any_index_replaceKey (index i : ℕ) (ql : List NotNormalLootItem) :
    ((replaceKey NotNormalLootItem.index ⟨index, true⟩ ql).any fun entry => entry.index = i) =
      ql.any fun entry => entry.index = i := by
  have hmap := map_key_replaceKey NotNormalLootItem.index ⟨index, true⟩ ql
  have hany : ∀ ql : List NotNormalLootItem, (ql.any fun entry => decide (entry.index = i)) =
      (ql.map NotNormalLootItem.index).any fun j => decide (j = i) := by
    intro ql
    rw [List.any_map]
    rfl
  rw [hany, hany, hmap]

theorem listed_markLooted (hkeys : (lists.map Prod.fst).Nodup) (guid index i : ℕ) :
    listed (markLooted lists guid index) i = listed lists i := by
  unfold markLooted
  split
  · rfl
  · next ql h =>
    have hiff : listed (replaceKey Prod.fst (guid, replaceKey NotNormalLootItem.index ⟨index, true⟩ ql)
        lists) i = true ↔ listed lists i = true := by
      unfold listed replaceKey
      rw [List.any_map, List.any_eq_true, List.any_eq_true]
      refine exists_congr fun list => and_congr_right fun hlist => ?_
      rw [Function.comp_apply]
      by_cases hguid : list.1 = guid
      · have heq : list = (guid, ql) := eq_of_key hkeys hlist (mem_of_listOf h) hguid
        rw [if_pos hguid, heq]
        exact Bool.eq_iff_iff.mp (any_index_replaceKey index i ql)
      · rw [if_neg hguid]
    exact Bool.eq_iff_iff.mpr hiff

/-! ## Handing out -/

/-- The item at the place is one unit: it is for one player, is there, and is counted. -/
def Single (l : Loot) (place : ℕ) : Prop :=
  (place < l.items.length ∧ ∃ item, l.items[place]? = some item ∧ waits item = true) ∨
    (l.items.length ≤ place ∧ isSingle l.questItems (place - l.items.length) = true ∧
      listed l.playerQuestItems (place - l.items.length) = true)

instance (l : Loot) (place : ℕ) : Decidable (Single l place) := by
  have : Decidable (∃ item, l.items[place]? = some item ∧ waits item = true) :=
    decidable_of_iff (l.items[place]?.any waits = true) (by
      cases l.items[place]? <;> simp)
  exact inferInstanceAs (Decidable (_ ∨ _))

theorem length_items_modifyAt (l : Loot) (place : ℕ) (f : LootItem → LootItem) :
    (l.modifyAt place f).items.length = l.items.length ∧
      (l.modifyAt place f).questItems.length = l.questItems.length := by
  unfold modifyAt
  split
  · exact ⟨rfl, List.length_modify ..⟩
  · exact ⟨List.length_modify .., rfl⟩

theorem itemAt_modifyAt (l : Loot) (place : ℕ) (f : LootItem → LootItem) (i : ℕ) :
    (l.modifyAt place f).itemAt i = if i = place then (l.itemAt i).map f else l.itemAt i := by
  have hlength := (length_items_modifyAt l place f).1
  unfold itemAt
  rw [hlength]
  unfold modifyAt
  by_cases hplace : l.items.length ≤ place
  · rw [if_pos hplace]
    by_cases hi : l.items.length ≤ i
    · rw [if_pos hi, if_pos hi, List.getElem?_modify]
      by_cases heq : i = place
      · rw [if_pos heq, heq]
        simp
      · have hne : ¬ place - l.items.length = i - l.items.length := by omega
        simp [heq, hne]
    · rw [if_neg hi, if_neg hi, if_neg (by omega)]
  · rw [if_neg hplace]
    by_cases hi : l.items.length ≤ i
    · rw [if_pos hi, if_pos hi, if_neg (by omega)]
    · rw [if_neg hi, if_neg hi, List.getElem?_modify]
      by_cases heq : i = place
      · rw [if_pos heq, heq]
        simp
      · simp [heq, Ne.symm heq]

variable {f : LootItem → LootItem}

/-- Whom a quest item is for does not change when it is looted. -/
theorem isFFA_looted (hffa : ∀ item, (f item).freeForAll = item.freeForAll) (items : List LootItem)
    (j : ℕ) :
    isFFA (items.modify j fun item => { f item with isLooted := true }) = isFFA items := by
  funext i
  unfold isFFA
  rw [List.getElem?_modify]
  cases items[i]? with
  | none => rfl
  | some item =>
    show (if j = i then { f item with isLooted := true } else item).freeForAll = item.freeForAll
    split
    · exact hffa item
    · rfl

theorem isSingle_looted (f : LootItem → LootItem) (items : List LootItem) (j i : ℕ) :
    isSingle (items.modify j fun item => { f item with isLooted := true }) i =
      if i = j then false else isSingle items i := by
  unfold isSingle
  rw [List.getElem?_modify]
  by_cases h : i = j
  · subst h
    cases items[i]? <;> simp
  · cases items[i]? <;> simp [h, Ne.symm h]

/-- **An item that is one unit is handed out.** -/
theorem outstanding_handedOut (h : l.Single place)
    (hffa : ∀ item, (f item).freeForAll = item.freeForAll) :
    (l.modifyAt place fun item => { f item with isLooted := true }).outstanding + 1 =
      l.outstanding := by
  rcases h with ⟨hlt, item, hitem, hwaits⟩ | ⟨hle, hsingle, hlisted⟩
  · have hlost : (l.items.modify place fun item => { f item with isLooted := true }).countP waits + 1 =
        l.items.countP waits := countP_modify_lost hitem hwaits (by simp [waits])
    unfold modifyAt outstanding
    rw [if_neg (not_le.mpr hlt)]
    dsimp only at hlost ⊢
    omega
  · unfold modifyAt outstanding questUnits
    rw [if_pos hle]
    dsimp only
    generalize place - l.items.length = j at *
    have hlt : j < l.questItems.length := by
      by_contra hge
      unfold isSingle at hsingle
      rw [List.getElem?_eq_none (not_lt.mp hge)] at hsingle
      cases hsingle
    have hcount : (List.range l.questItems.length).countP (fun i => listed l.playerQuestItems i &&
          isSingle (l.questItems.modify j fun item => { f item with isLooted := true }) i) + 1 =
        (List.range l.questItems.length).countP
          fun i => listed l.playerQuestItems i && isSingle l.questItems i := by
      refine countP_lost List.nodup_range (List.mem_range.mpr hlt) ?_ ?_ ?_
      · rw [hlisted, hsingle, Bool.and_self]
      · rw [isSingle_looted, if_pos rfl, Bool.and_false]
      · intro i hne
        rw [isSingle_looted, if_neg hne]
    dsimp only at hcount
    rw [isFFA_looted hffa, List.length_modify]
    omega

theorem outstanding_of_not_single (h : ¬ l.Single place)
    (hffa : ∀ item, (f item).freeForAll = item.freeForAll) :
    (l.modifyAt place fun item => { f item with isLooted := true }).outstanding = l.outstanding := by
  by_cases hle : l.items.length ≤ place
  · unfold modifyAt outstanding questUnits
    rw [if_pos hle]
    have hnot : (listed l.playerQuestItems (place - l.items.length) &&
        isSingle l.questItems (place - l.items.length)) = false := by
      by_contra hboth
      rw [Bool.not_eq_false, Bool.and_eq_true] at hboth
      exact h (.inr ⟨hle, hboth.2, hboth.1⟩)
    generalize place - l.items.length = j at *
    have hcount : (List.range l.questItems.length).countP (fun i => listed l.playerQuestItems i &&
          isSingle (l.questItems.modify j fun item => { f item with isLooted := true }) i) =
        (List.range l.questItems.length).countP
          fun i => listed l.playerQuestItems i && isSingle l.questItems i := by
      refine List.countP_congr fun i _ => ?_
      rw [isSingle_looted]
      by_cases heq : i = j
      · rw [if_pos heq, heq, hnot, Bool.and_false]
      · rw [if_neg heq]
    rw [isFFA_looted hffa, List.length_modify, hcount]
  · have hsame : (l.items.modify place fun item => { f item with isLooted := true }).countP waits =
        l.items.countP waits := by
      refine countP_modify_same fun item hitem => ?_
      have hwaits : waits item = false := by
        by_contra hwaits
        rw [Bool.not_eq_false] at hwaits
        exact h (.inl ⟨not_le.mp hle, item, hitem, hwaits⟩)
      rw [hwaits]
      simp [waits]
    unfold modifyAt outstanding
    rw [if_neg hle]
    rw [hsame]

theorem outstanding_modifyAt (hffa : ∀ item, (f item).freeForAll = item.freeForAll)
    (hlooted : ∀ item, (f item).isLooted = item.isLooted)
    (hwaits : ∀ item, waits (f item) = waits item) :
    (l.modifyAt place f).outstanding = l.outstanding := by
  unfold modifyAt
  split
  · have hFFA : isFFA (l.questItems.modify (place - l.items.length) f) = isFFA l.questItems := by
      funext i
      unfold isFFA
      rw [List.getElem?_modify]
      cases l.questItems[i]? with
      | none => rfl
      | some item =>
        show (if place - l.items.length = i then f item else item).freeForAll = item.freeForAll
        split
        · exact hffa item
        · rfl
    have hsingle : isSingle (l.questItems.modify (place - l.items.length) f) = isSingle l.questItems := by
      funext i
      unfold isSingle
      rw [List.getElem?_modify]
      cases l.questItems[i]? with
      | none => rfl
      | some item =>
        by_cases heq : place - l.items.length = i
        · simp [heq, hffa, hlooted]
        · simp [heq]
    unfold outstanding questUnits
    rw [hFFA, hsingle, List.length_modify]
  · unfold outstanding
    rw [countP_modify_same fun item _ => hwaits item]

end Sunstrider.Loots.Loot
