import Sunstrider.Laws.Guilds.BankStores

/-!
# Moves of the guild bank

A move takes stacks out of their slots and stores them by plan. `stores` lists the stacks that
`Guild::_MoveItems` stores, and `bank_moves_conserve_items_iff` says that the move conserves the items
just if each of them is narrow where it goes.
-/

namespace Sunstrider.Guilds.BankWorld

open Sunstrider.Items (Item ItemTemplates getMaxStackSize)
open Sunstrider.Lib (Sound Fits total total_grow total_put total_shrink total_vacate)

variable {E : BankEnv} {w : BankWorld} {self : MoveItemData} {item : Item} {swap : Bool}
  {plan : List (Location × ℕ)} {vec : List ItemPosCount}

/-! ## Moves -/

/-- **What a move must keep**: the number of items of every entry, each item object in one slot, and
stacks that are neither empty nor too high. -/
structure Conserves (templates : ItemTemplates) (w w' : BankWorld) : Prop where
  counts : ∀ entry, w'.count entry = w.count entry
  objects : ∀ l l' a b, w'.itemAt l = some a → w'.itemAt l' = some b → a.guid = b.guid → l = l'
  sizes : ∀ l a, w'.itemAt l = some a → 0 < a.count ∧ a.count ≤ templates a.entry

variable {w' : BankWorld}

theorem conserves_of_sound {templates : ItemTemplates}
    (hcounts : ∀ entry, w'.count entry = w.count entry) (hs : w'.SoundSlots templates) :
    Conserves templates w w' :=
  ⟨hcounts, fun l l' a b => hs.one l l' a b, hs.sizes⟩

theorem conserves_of_itemAt {templates : ItemTemplates} (hw : w.SoundSlots templates)
    (h : w'.itemAt = w.itemAt) : Conserves templates w w' := by
  refine ⟨fun entry => ?_, ?_, ?_⟩
  · unfold count
    rw [h]
  · rw [h]
    exact fun l l' a b => hw.one l l' a b
  · rw [h]
    exact hw.sizes

theorem location_of_initItem {item : Item} (h : w.initItem self = some item) :
    ∃ l, self.location = some l ∧ w.itemAt l = some item := by
  cases self with
  | player pos => exact ⟨.inr pos, rfl, (Option.filter_eq_some_iff.mp h).1⟩
  | bank tab slot =>
    obtain ⟨slotId, rfl, hat⟩ := Option.bind_eq_some_iff.mp h
    exact ⟨.inl (tab, slotId), rfl, hat⟩

theorem itemAt_withGuild {g : Guild} (h : g.bankTabs = w.guild.bankTabs) :
    itemAt { w with guild := g } = w.itemAt := by
  funext l
  cases l with
  | inl p =>
    show (g.bankTabs[p.1.val]?).bind _ = _
    rw [h]
    rfl
  | inr p => rfl

theorem updateMemberWithdrawSlots_tabs (g : Guild) (guid tabId : ℕ) :
    (g.updateMemberWithdrawSlots guid tabId).bankTabs = g.bankTabs := by
  unfold Guild.updateMemberWithdrawSlots
  repeat' split
  all_goals rfl

variable {l : Location}

/-- **What a removal writes**: a smaller stack, or nothing. -/
theorem removeItem_spec (player : ℕ) (other : MoveItemData) (split : ℕ)
    (hl : self.location = some l) (hat : w.itemAt l = some item) :
    w.Keeps (w.removeItem player self other split) ∧
      (w.removeItem player self other split).nextGuid = w.nextGuid ∧
      (w.removeItem player self other split).itemAt = Function.update w.itemAt l
        (if split ≠ 0 then some { item with count := item.count - split } else none) := by
  have hplace := hasPlace_of_itemAt hat
  have hwritten : (if split ≠ 0 then w.setItem l ((w.itemAt l).map fun item =>
      { item with count := item.count - split }) else w.setItem l none) = w.setItem l
        (if split ≠ 0 then some { item with count := item.count - split } else none) := by
    rw [hat]
    split <;> rfl
  have hnext : ∀ o, (w.setItem l o).nextGuid = w.nextGuid := fun o => by cases l <;> rfl
  unfold removeItem
  rw [hl]
  dsimp only
  rw [hwritten]
  cases self with
  | player pos => exact ⟨setItem_keeps .., hnext _, itemAt_setItem hplace _⟩
  | bank tab slot =>
    dsimp only
    split
    · exact ⟨setItem_keeps .., hnext _, itemAt_setItem hplace _⟩
    · have htabs := updateMemberWithdrawSlots_tabs (w.setItem l
        (if split ≠ 0 then some { item with count := item.count - split } else none)).guild player tab
      refine ⟨⟨(congrArg List.length htabs).trans (setItem_keeps w l _).tabs,
        (setItem_keeps w l _).nextGuid⟩, hnext _, ?_⟩
      rw [itemAt_withGuild htabs]
      exact itemAt_setItem hplace _

/-! ## Removal -/

/-- A world from which a stack, or a part of it, has been taken out of a slot. -/
structure Removed (E : BankEnv) (w w' : BankWorld) (l : Location) (item : Item) (n : ℕ)
    (o : Option Item) : Prop where
  keeps : w.Keeps w'
  nextGuid : w'.nextGuid = w.nextGuid
  itemAt : w'.itemAt = Function.update w.itemAt l o
  sound : w'.SoundSlots E.templates
  count : ∀ entry, w'.count entry + (if item.entry = entry then n else 0) = w.count entry

theorem removed_all (hs : w.SoundSlots E.templates) (player : ℕ) (other : MoveItemData)
    (hl : self.location = some l) (hat : w.itemAt l = some item) :
    Removed E w (w.removeItem player self other 0) l item item.count none := by
  obtain ⟨hkeeps, hnext, hitemAt⟩ := removeItem_spec player other 0 hl hat
  refine ⟨hkeeps, hnext, hitemAt, ?_, fun entry => ?_⟩
  · unfold SoundSlots
    rw [hnext, hitemAt]
    exact hs.vacate l
  · unfold BankWorld.count
    rw [hitemAt]
    exact total_vacate entry hat

variable {player split : ℕ}

theorem removed_part (hs : w.SoundSlots E.templates) {other : MoveItemData}
    (hl : self.location = some l) (hat : w.itemAt l = some item) (hpos : split ≠ 0)
    (hlt : split < item.count) :
    Removed E w (w.removeItem player self other split) l item split
      (some { item with count := item.count - split }) := by
  obtain ⟨hkeeps, hnext, hitemAt⟩ := removeItem_spec player other split hl hat
  rw [if_pos hpos] at hitemAt
  refine ⟨hkeeps, hnext, hitemAt, ?_, fun entry => ?_⟩
  · unfold SoundSlots
    rw [hnext, hitemAt]
    have hsize : 0 < item.count - split ∧ item.count - split ≤ E.templates item.entry :=
      ⟨Nat.sub_pos_of_lt hlt, (Nat.sub_le _ _).trans (hs.sizes l item hat).2⟩
    exact hs.resize hat rfl hsize
  · unfold BankWorld.count
    rw [hitemAt]
    exact total_shrink entry hat rfl (Nat.sub_add_cancel hlt.le)

/-! ## One stack is stored -/

/-- **What `CanStore` answers.** -/
theorem canStore_planned (hE : E.PlacesExactly) (hs : w.SoundSlots E.templates)
    (hcount : 0 < item.count) (hmax : item.count ≤ E.templates item.entry)
    (hslot : swap = true → self.location ≠ none)
    (hother : self.isBank = false → ∀ p a, w.inventory p = some a → a.guid ≠ item.guid)
    (h : w.canStore E self item swap = some vec) : ∃ plan, w.Planned E self item swap plan vec := by
  cases self with
  | player pos =>
    exact playerCanStore_planned hE hcount hmax (fun p a => hs.sizes (.inr p) a) (hother rfl) h
  | bank tab slot =>
    refine bankCanStore_planned hcount hmax (fun hswap hnone => hslot hswap ?_) h
    rw [hnone]
    rfl

/-- **One stack is taken out and stored elsewhere**: the items are conserved just if it is narrow. -/
theorem store_conserves_iff {taken : Item} {o : Option Item} (hat : w.itemAt l = some taken)
    (hremoved : Removed E w w' l taken item.count o) (hentry : item.entry = taken.entry)
    (hleft : ∀ a, o = some a → a.entry = taken.entry ∧ a.count ≤ taken.count ∧
      taken.guid ≠ item.guid) (hfree : w'.Free item.guid)
    (hplan : w.Planned E self item false plan vec) :
    Conserves E.templates w (storeItem E item vec w') ↔ w.Narrow E self item false := by
  have hfits : Fits Item.entry Item.count E.templates item.entry w'.itemAt (stored vec) := by
    apply hplan.stored_fits
    intro l' a ha _
    have hseen : ∀ b, w.itemAt l' = some b → b.guid ≠ item.guid →
        w.seen self item false l' = some b := by
      intro b hb hne
      unfold seen
      rw [if_neg (by simp), hb, Option.filter_some, if_pos (by simpa using hne)]
    by_cases hl' : l' = l
    · subst hl'
      rw [hremoved.itemAt, Function.update_self] at ha
      obtain ⟨hkind, hle, hne⟩ := hleft a ha
      exact ⟨taken, hseen taken hat hne, hkind, hle⟩
    · have hne := hfree.2 l' a ha
      rw [hremoved.itemAt, Function.update_of_ne hl'] at ha
      exact ⟨a, hseen a ha hne, rfl, le_rfl⟩
  have hplaces : ∀ p ∈ vec, w'.HasPlace p.pos := by
    intro p hp
    exact hremoved.keeps.hasPlace (hplan.hasPlace p hp)
  have hstored := (storeItem_spec vec hplaces hfits).2.2
  rw [hplan.stored_sum] at hstored
  rw [← hplan.storedCount_eq_iff]
  constructor
  · intro h
    have hafter := hstored item.entry
    have hbefore := hremoved.count item.entry
    rw [h.counts, if_pos rfl] at hafter
    rw [if_pos hentry.symm] at hbefore
    omega
  · intro hfull
    have hpos := hplan.stored_pos (hplan.storedCount_eq_iff.mp hfull)
    apply conserves_of_sound
    · intro entry
      rw [hstored, hfull, hentry]
      exact hremoved.count entry
    · exact (storeItem_sound vec hremoved.sound hfree hpos hplaces hfits).1

/-! ## Two stacks are swapped -/

variable {dest src : MoveItemData} {a b : Item}

/-- The places of two plans that are made for a swap are different. -/
theorem swapped_apart {plan plan' : List (Location × ℕ)} {vec vec' : List ItemPosCount}
    (hbank : src.isBank = true ∨ dest.isBank = true) (hne : src.location ≠ dest.location)
    (hplan : w.Planned E dest a true plan vec) (hplan' : w.Planned E src b true plan' vec') :
    ∀ p ∈ plan, ∀ p' ∈ plan', p.1 ≠ p'.1 := by
  intro p hp p' hp' heq
  obtain ⟨hside, hnamed⟩ := hplan.side p hp
  obtain ⟨hside', hnamed'⟩ := hplan'.side p' hp'
  have hsame : dest.isBank = src.isBank := by rw [← hside, ← hside', heq]
  have hdest : dest.isBank = true := hbank.elim (fun h => hsame.trans h) id
  have hsrc : src.isBank = true := hsame ▸ hdest
  exact hne (by rw [hnamed rfl hdest, hnamed' rfl hsrc, heq])

/-- **Two stacks are taken out and stored, each on the other's side**: the items are conserved just if
both are narrow. -/
theorem swap_conserves_iff (hs : w.SoundSlots E.templates)
    (hbank : src.isBank = true ∨ dest.isBank = true) {m : Location} (hl : src.location = some l)
    (hm : dest.location = some m) (hlm : l ≠ m) (ha : w.itemAt l = some a)
    (hb : w.itemAt m = some b) {w₁ w₂ : BankWorld} (h₁ : Removed E w w₁ l a a.count none)
    (h₂ : Removed E w₁ w₂ m b b.count none) {plan plan' : List (Location × ℕ)}
    {vec vec' : List ItemPosCount} (hplan : w.Planned E dest a true plan vec)
    (hplan' : w.Planned E src b true plan' vec') :
    Conserves E.templates w (storeItem E b vec' (storeItem E a vec w₂)) ↔
      w.Narrow E dest a true ∧ w.Narrow E src b true := by
  -- after both removals, the other slots are as they were
  have hrest : ∀ x c, w₂.itemAt x = some c → x ≠ l ∧ x ≠ m ∧ w.itemAt x = some c := by
    intro x c hx
    rw [h₂.itemAt, h₁.itemAt] at hx
    by_cases hxm : x = m
    · rw [hxm, Function.update_self] at hx
      cases hx
    · rw [Function.update_of_ne hxm] at hx
      by_cases hxl : x = l
      · rw [hxl, Function.update_self] at hx
        cases hx
      · rw [Function.update_of_ne hxl] at hx
        exact ⟨hxl, hxm, hx⟩
  have hnext : w₂.nextGuid = w.nextGuid := h₂.nextGuid.trans h₁.nextGuid
  have hfree : w₂.Free a.guid := by
    refine ⟨hnext ▸ hs.old l a ha, fun x c hx heq => ?_⟩
    obtain ⟨hxl, -, hc⟩ := hrest x c hx
    exact hxl (hs.one x l c a hc ha heq)
  have hfree' : w₂.Free b.guid := by
    refine ⟨hnext ▸ hs.old m b hb, fun x c hx heq => ?_⟩
    obtain ⟨-, hxm, hc⟩ := hrest x c hx
    exact hxm (hs.one x m c b hc hb heq)
  have hguids : b.guid ≠ a.guid := fun heq => hlm (hs.one m l b a hb ha heq).symm
  -- both plans fit into what is left
  have hseen : ∀ (self : MoveItemData) (item : Item) (x : Location) (c : Item),
      (self.location = some l ∨ self.location = some m) → w₂.Free item.guid →
      w₂.itemAt x = some c → w.seen self item true x = some c := by
    intro self item x c hself hitem hx
    obtain ⟨hxl, hxm, hc⟩ := hrest x c hx
    have hother : self.location ≠ some x := by
      rintro heq
      rcases hself with h | h <;> rw [h] at heq
      · exact hxl (Option.some.inj heq).symm
      · exact hxm (Option.some.inj heq).symm
    unfold seen
    rw [if_neg fun h => hother h.2, hc, Option.filter_some,
      if_pos (by simpa using hitem.2 x c hx)]
  have hfits : Fits Item.entry Item.count E.templates a.entry w₂.itemAt (stored vec) := by
    apply hplan.stored_fits
    intro x c hx _
    exact ⟨c, hseen dest a x c (.inr hm) hfree hx, rfl, le_rfl⟩
  have hkeeps : w.Keeps w₂ := h₁.keeps.trans h₂.keeps
  have hplaces : ∀ p ∈ vec, w₂.HasPlace p.pos := fun p hp => hkeeps.hasPlace (hplan.hasPlace p hp)
  obtain ⟨hkeeps₃, hframe, hstored⟩ := storeItem_spec vec hplaces hfits
  have hne : src.location ≠ dest.location := by
    rw [hl, hm]
    exact fun heq => hlm (Option.some.inj heq)
  have hapart := swapped_apart hbank hne hplan hplan'
  have hfits' : Fits Item.entry Item.count E.templates b.entry (storeItem E a vec w₂).itemAt
      (stored vec') := by
    apply hplan'.stored_fits
    intro x c hx hplanned
    obtain ⟨p', hp', rfl⟩ := List.mem_map.mp hplanned
    have huntouched : ∀ p ∈ vec, p.pos ≠ p'.1 := by
      intro p hp
      rw [hplan.vec_eq] at hp
      obtain ⟨q, hq, rfl⟩ := List.mem_map.mp hp
      exact hapart q hq p' hp'
    rw [hframe _ huntouched] at hx
    exact ⟨c, hseen src b _ c (.inl hl) hfree' hx, rfl, le_rfl⟩
  have hplaces' : ∀ p ∈ vec', (storeItem E a vec w₂).HasPlace p.pos := by
    intro p hp
    exact hkeeps₃.hasPlace (hkeeps.hasPlace (hplan'.hasPlace p hp))
  have hstored' := (storeItem_spec vec' hplaces' hfits').2.2
  rw [hplan.stored_sum] at hstored
  rw [hplan'.stored_sum] at hstored'
  have hle := hplan.storedCount_le
  have hle' := hplan'.storedCount_le
  rw [← hplan.storedCount_eq_iff, ← hplan'.storedCount_eq_iff]
  constructor
  · intro h
    have hsum : ∀ entry, (if a.entry = entry then storedCount plan else 0) +
        (if b.entry = entry then storedCount plan' else 0) =
        (if a.entry = entry then a.count else 0) + if b.entry = entry then b.count else 0 := by
      intro entry
      have hafter := hstored' entry
      rw [h.counts, hstored] at hafter
      have hbefore := h₁.count entry
      rw [← h₂.count] at hbefore
      omega
    by_cases hsame : b.entry = a.entry
    · have hboth := hsum a.entry
      rw [if_pos rfl, if_pos hsame, if_pos rfl, if_pos hsame] at hboth
      omega
    · have hfst := hsum a.entry
      have hsnd := hsum b.entry
      rw [if_pos rfl, if_neg hsame, if_pos rfl, if_neg hsame] at hfst
      rw [if_neg (Ne.symm hsame), if_pos rfl, if_neg (Ne.symm hsame), if_pos rfl] at hsnd
      omega
  · rintro ⟨hfull, hfull'⟩
    have hpos := hplan.stored_pos (hplan.storedCount_eq_iff.mp hfull)
    have hpos' := hplan'.stored_pos (hplan'.storedCount_eq_iff.mp hfull')
    obtain ⟨hsound₃, hfree₃⟩ := storeItem_sound vec h₂.sound hfree hpos hplaces hfits
    apply conserves_of_sound
    · intro entry
      rw [hstored', hstored, hfull, hfull', ← h₁.count, ← h₂.count]
      omega
    · exact (storeItem_sound vec' hsound₃ (hfree₃ _ hfree' hguids) hpos' hplaces' hfits').1

/-! ## What a move stores -/

/-- The stacks that `_DoItemsMove` stores, each with the side it goes to and the flag `swap`. Without a
place for every one of them, nothing is stored. -/
def doStores (E : BankEnv) (w : BankWorld) (src dest : MoveItemData) (srcItem : Item)
    (destItem : Option Item) : List (MoveItemData × Item × Bool) :=
  if (w.canStore E dest srcItem destItem.isSome).isSome &&
      destItem.all fun item => (w.canStore E src item true).isSome then
    (dest, srcItem, destItem.isSome) :: destItem.toList.map fun item => (src, item, true)
  else []

/-- The stacks that `_MoveItems` stores: the clone that is split off, or the item, or the two items that
are swapped. -/
def stores (E : BankEnv) (w : BankWorld) (player : ℕ) (src dest : MoveItemData)
    (splitedAmount : ℕ) : List (MoveItemData × Item × Bool) :=
  match w.initItem src with
  | none => []
  | some item =>
    match checkItem item splitedAmount with
    | none => []
    | some split =>
      if !dest.hasStoreRights w.guild player src then []
      else if !src.hasWithdrawRights w.guild player dest then []
      else if split ≠ 0 then
        match (w.cloneItem E item split).2 with
        | none => []
        | some clone => w.doStores E src dest clone none
      else if (w.canStore E dest item false).isSome then w.doStores E src dest item none
      else
        match w.initItem dest with
        | none => []
        | some destItem =>
          if !src.hasStoreRights w.guild player dest then []
          else if !dest.hasWithdrawRights w.guild player src then []
          else w.doStores E src dest item (some destItem)

/-- Every stack of a list is narrow where it goes. -/
def AllNarrow (E : BankEnv) (w : BankWorld) (moved : List (MoveItemData × Item × Bool)) : Prop :=
  ∀ s ∈ moved, w.Narrow E s.1 s.2.1 s.2.2

theorem checkItem_some {splitedAmount : ℕ} (h : checkItem item splitedAmount = some split) :
    split = 0 ∨ split < item.count := by
  unfold checkItem at h
  split at h
  · cases h
  · split at h
    · cases h
      exact .inl rfl
    · cases h
      omega

theorem canStore_withNext (w : BankWorld) (n : ℕ) (self : MoveItemData) (item : Item) (swap : Bool) :
    canStore E { w with nextGuid := n } self item swap = w.canStore E self item swap := by
  cases self <;> rfl

theorem narrow_withNext (w : BankWorld) (n : ℕ) (self : MoveItemData) (item : Item) (swap : Bool) :
    Narrow E { w with nextGuid := n } self item swap ↔ w.Narrow E self item swap := by
  cases self <;> rfl

/-- An item that is given to the inventory from elsewhere is not there yet. -/
theorem not_in_inventory (hs : w.SoundSlots E.templates) (hl : w.itemAt l = some item)
    (hbank : l.isLeft = true) : ∀ p a, w.inventory p = some a → a.guid ≠ item.guid := by
  intro p a ha heq
  have hsame : (.inr p : Location) = l := hs.one (.inr p) l a item ha hl heq
  rw [← hsame] at hbank
  cases hbank

theorem location_isLeft (h : self.location = some l) : l.isLeft = self.isBank := by
  cases self with
  | player pos =>
    cases h
    rfl
  | bank tab slot =>
    obtain ⟨slotId, -, rfl⟩ := Option.map_eq_some_iff.mp h
    rfl

theorem split_conserves_iff (hE : E.PlacesExactly) (hs : w.SoundSlots E.templates)
    (hinit : w.initItem src = some item) (hpos : split ≠ 0) (hlt : split < item.count)
    {clone : Item} (hclone : clone = { item with
      guid := w.nextGuid
      count := split
      notEmptyBag := false }) {w₀ : BankWorld} (hw₀ : w₀ = { w with nextGuid := w.nextGuid + 1 }) :
    Conserves E.templates w ((w₀.doItemsMove E player src dest clone none split).getD w₀) ↔
      w.AllNarrow E (w.doStores E src dest clone none) := by
  obtain ⟨l, hl, hat⟩ := location_of_initItem hinit
  have hmax := (hs.sizes l item hat).2
  have hitemAt₀ : w₀.itemAt = w.itemAt := by rw [hw₀, itemAt_withNext]
  have hs₀ : w₀.SoundSlots E.templates := by
    unfold SoundSlots
    rw [hitemAt₀, hw₀]
    exact hs.mono (Nat.le_succ _)
  have hcan : w₀.canStore E dest clone false = w.canStore E dest clone false := by
    rw [hw₀, canStore_withNext]
  have hconserves : ∀ w', Conserves E.templates w w' ↔ Conserves E.templates w₀ w' := by
    intro w'
    have hcounts : ∀ entry, w₀.count entry = w.count entry := fun entry => by
      rw [hw₀, count_withNext]
    exact ⟨fun h => ⟨fun entry => (h.counts entry).trans (hcounts entry).symm, h.objects, h.sizes⟩,
      fun h => ⟨fun entry => (h.counts entry).trans (hcounts entry), h.objects, h.sizes⟩⟩
  unfold doItemsMove doStores
  rw [Option.isSome_none, hcan]
  cases hvec : w.canStore E dest clone false with
  | none =>
    refine iff_of_true (conserves_of_itemAt hs hitemAt₀) fun s hs => ?_
    exact absurd hs List.not_mem_nil
  | some vec =>
    have hnarrow : w.AllNarrow E [(dest, clone, false)] ↔ w₀.Narrow E dest clone false := by
      rw [hw₀, narrow_withNext]
      exact List.forall_mem_singleton
    show Conserves E.templates w (storeItem E clone vec _) ↔ w.AllNarrow E [(dest, clone, false)]
    rw [hnarrow, hconserves]
    have hguid : clone.guid = w.nextGuid := by rw [hclone]
    have hcount : clone.count = split := by rw [hclone]
    have hentry : clone.entry = item.entry := by rw [hclone]
    have hfresh : ∀ x a, w.itemAt x = some a → a.guid ≠ clone.guid := by
      intro x a ha
      rw [hguid]
      exact (hs.old x a ha).ne
    obtain ⟨plan, hplan⟩ : ∃ plan, w₀.Planned E dest clone false plan vec := by
      refine canStore_planned hE hs₀ (hcount ▸ Nat.pos_of_ne_zero hpos) ?_ (fun h => (nomatch h)) ?_
        (hcan.trans hvec)
      · rw [hentry, hcount]
        omega
      · intro _ p a ha
        rw [hw₀] at ha
        exact hfresh (.inr p) a ha
    have hremoved : Removed E w₀ (w₀.removeItem player src dest split) l item clone.count
        (some { item with count := item.count - split }) := by
      rw [hcount]
      exact removed_part hs₀ hl (by rw [hitemAt₀, hat]) hpos hlt
    refine store_conserves_iff (by rw [hitemAt₀, hat]) hremoved hentry ?_ ⟨?_, ?_⟩ hplan
    · intro a ha
      cases ha
      exact ⟨rfl, Nat.sub_le _ _, hfresh l item hat⟩
    · rw [hremoved.nextGuid, hw₀, hguid]
      exact Nat.lt_succ_self _
    · intro x a hx
      rw [hremoved.itemAt, hitemAt₀] at hx
      by_cases hxl : x = l
      · rw [hxl, Function.update_self] at hx
        cases hx
        exact hfresh l item hat
      · rw [Function.update_of_ne hxl] at hx
        exact hfresh x a hx

theorem moveItems_whole {splitedAmount : ℕ} (hinit : w.initItem src = some item)
    (hcheck : checkItem item splitedAmount = some 0)
    (hstore : dest.hasStoreRights w.guild player src = true)
    (hwithdraw : src.hasWithdrawRights w.guild player dest = true)
    (hvec : w.canStore E dest item false = some vec) :
    w.moveItems E player src dest splitedAmount =
      storeItem E item vec (w.removeItem player src dest 0) := by
  unfold moveItems doItemsMove
  simp [hinit, hcheck, hstore, hwithdraw, hvec]

theorem whole_conserves_iff (hE : E.PlacesExactly) (hs : w.SoundSlots E.templates)
    (hbank : src.isBank = true ∨ dest.isBank = true) (hl : src.location = some l)
    (hat : w.itemAt l = some item) (hvec : w.canStore E dest item false = some vec) :
    Conserves E.templates w (storeItem E item vec (w.removeItem player src dest 0)) ↔
      w.Narrow E dest item false := by
  obtain ⟨hcount, hmax⟩ := hs.sizes l item hat
  have hremoved := removed_all hs player dest hl hat
  obtain ⟨plan, hplan⟩ : ∃ plan, w.Planned E dest item false plan vec := by
    refine canStore_planned hE hs hcount hmax (by simp) ?_ hvec
    intro hdest
    have hsrc : src.isBank = true := hbank.resolve_right (by simp [hdest])
    exact not_in_inventory hs hat ((location_isLeft hl).trans hsrc)
  refine store_conserves_iff hat hremoved rfl (fun a ha => (nomatch ha)) ⟨?_, ?_⟩ hplan
  · rw [hremoved.nextGuid]
    exact hs.old l item hat
  · intro x a hx heq
    rw [hremoved.itemAt] at hx
    by_cases hxl : x = l
    · rw [hxl, Function.update_self] at hx
      cases hx
    · rw [Function.update_of_ne hxl] at hx
      exact hxl (hs.one x l a item hx hat heq)

/-- An item whose own slot is the destination has a place there, if it has one in a swap. -/
theorem canStore_own (hl : self.location = some l) (hat : w.itemAt l = some item)
    (hbank : self.isBank = true) : w.canStore E self item false = w.canStore E self item true := by
  cases self with
  | player pos => cases hbank
  | bank tab slot =>
    obtain ⟨slotId, rfl, rfl⟩ := Option.map_eq_some_iff.mp hl
    apply bankCanStore_own
    unfold itemDest
    rw [hat, Option.filter_some, if_neg (by simp)]

theorem exchange_conserves_iff (hE : E.PlacesExactly) (hs : w.SoundSlots E.templates)
    (hbank : src.isBank = true ∨ dest.isBank = true) (hinit : w.initItem src = some a)
    (hinit' : w.initItem dest = some b) (hfirst : w.canStore E dest a false = none) :
    Conserves E.templates w ((w.doItemsMove E player src dest a (some b) 0).getD w) ↔
      w.AllNarrow E (w.doStores E src dest a (some b)) := by
  obtain ⟨l, hl, ha⟩ := location_of_initItem hinit
  obtain ⟨m, hm, hb⟩ := location_of_initItem hinit'
  have hstay : Conserves E.templates w w ↔ w.AllNarrow E [] :=
    iff_of_true (conserves_of_itemAt hs rfl) fun s hs => absurd hs List.not_mem_nil
  unfold doItemsMove doStores
  rw [Option.isSome_some, Option.all_some]
  cases hvec : w.canStore E dest a true with
  | none => exact hstay
  | some vec =>
    dsimp only
    cases hvec' : w.canStore E src b true with
    | none => exact hstay
    | some vec' =>
      have hnarrow : w.AllNarrow E [(dest, a, true), (src, b, true)] ↔
          w.Narrow E dest a true ∧ w.Narrow E src b true := by
        simp [AllNarrow]
      -- the item would have stayed where it was
      have hlm : l ≠ m := by
        rintro rfl
        have hboth : dest.isBank = src.isBank := (location_isLeft hm).symm.trans (location_isLeft hl)
        have hdest : dest.isBank = true := hbank.elim (fun h => hboth.trans h) id
        rw [canStore_own hm ha hdest, hvec] at hfirst
        cases hfirst
      obtain ⟨hcount, hmax⟩ := hs.sizes l a ha
      obtain ⟨hcount', hmax'⟩ := hs.sizes m b hb
      obtain ⟨plan, hplan⟩ : ∃ plan, w.Planned E dest a true plan vec := by
        refine canStore_planned hE hs hcount hmax (by simp [hm]) ?_ hvec
        intro hdest
        have hsrc : src.isBank = true := hbank.resolve_right (by simp [hdest])
        exact not_in_inventory hs ha ((location_isLeft hl).trans hsrc)
      obtain ⟨plan', hplan'⟩ : ∃ plan', w.Planned E src b true plan' vec' := by
        refine canStore_planned hE hs hcount' hmax' (by simp [hl]) ?_ hvec'
        intro hsrc
        have hdest : dest.isBank = true := hbank.resolve_left (by simp [hsrc])
        exact not_in_inventory hs hb ((location_isLeft hm).trans hdest)
      have h₁ := removed_all hs player dest hl ha
      have hb₁ : (w.removeItem player src dest 0).itemAt m = some b := by
        rw [h₁.itemAt, Function.update_of_ne hlm.symm]
        exact hb
      have h₂ := removed_all h₁.sound player src hm hb₁
      show Conserves E.templates w (storeItem E b vec' (storeItem E a vec _)) ↔
        w.AllNarrow E [(dest, a, true), (src, b, true)]
      rw [hnarrow]
      exact swap_conserves_iff hs hbank hl hm hlm ha hb h₁ h₂ hplan hplan'

/-- **Moves of the guild bank conserve items just if every stack that is stored is narrow**: no slot
of the bank that takes a part of the stack has room for 256 items or more of what is left of it. -/
theorem bank_moves_conserve_items_iff (hE : E.PlacesExactly) (hs : w.SoundSlots E.templates)
    (player : ℕ) (src dest : MoveItemData) (hbank : src.isBank = true ∨ dest.isBank = true)
    (splitedAmount : ℕ) :
    Conserves E.templates w (w.moveItems E player src dest splitedAmount) ↔
      w.AllNarrow E (w.stores E player src dest splitedAmount) := by
  have hstay : Conserves E.templates w w ↔ w.AllNarrow E [] :=
    iff_of_true (conserves_of_itemAt hs rfl) fun s hs => absurd hs List.not_mem_nil
  unfold moveItems stores
  cases hinit : w.initItem src with
  | none => exact hstay
  | some item =>
    dsimp only
    cases hcheck : checkItem item splitedAmount with
    | none => exact hstay
    | some split =>
      dsimp only
      by_cases hstore : dest.hasStoreRights w.guild player src = true
      swap
      · simpa [hstore] using hstay
      by_cases hwithdraw : src.hasWithdrawRights w.guild player dest = true
      swap
      · simpa [hstore, hwithdraw] using hstay
      simp only [hstore, hwithdraw, Bool.not_true, Bool.false_eq_true, if_false]
      obtain ⟨l, hl, hat⟩ := location_of_initItem hinit
      have hmax := (hs.sizes l item hat).2
      by_cases hsplit : split = 0
      · subst hsplit
        unfold doItemsMove doStores
        cases hvec : w.canStore E dest item false with
        | some vec =>
          have hnarrow : w.AllNarrow E [(dest, item, false)] ↔ w.Narrow E dest item false :=
            List.forall_mem_singleton
          simpa [hvec, hnarrow] using whole_conserves_iff hE hs hbank hl hat hvec
        | none =>
          simp only [Option.isSome_none, hvec]
          cases hinit' : w.initItem dest with
          | none => exact hstay
          | some destItem =>
            dsimp only
            by_cases hstore' : src.hasStoreRights w.guild player dest = true
            swap
            · simpa [hstore'] using hstay
            by_cases hwithdraw' : dest.hasWithdrawRights w.guild player src = true
            swap
            · simpa [hstore', hwithdraw'] using hstay
            simp only [hstore', hwithdraw', Bool.not_true, Bool.false_eq_true, if_false]
            exact exchange_conserves_iff hE hs hbank hinit hinit' hvec
      · have hlt := (checkItem_some hcheck).resolve_left hsplit
        have hle : split ≤ getMaxStackSize E.templates item.entry := by
          unfold getMaxStackSize
          simp only [Bool.or_eq_true, decide_eq_true_eq]
          split <;> omega
        rw [if_pos hsplit, if_pos hsplit, cloneItem_eq item (Nat.pos_of_ne_zero hsplit) hle]
        exact split_conserves_iff hE hs hinit hsplit hlt rfl rfl

/-! ## A tab with one stack -/

theorem allNarrow_of_lt {moved : List (MoveItemData × Item × Bool)}
    (h : ∀ s ∈ moved, s.2.1.count < 256) : w.AllNarrow E moved := fun s hs => narrow_of_lt (h s hs)

/-- An inventory in which every stack goes to the position that is named, or nowhere. -/
def storesNamed (templates : ItemTemplates) : BankEnv :=
  { templates := templates
    canStoreItem := fun inventory pos item swap =>
      if ((inventory pos).isNone || swap) && item.count < 256 then
        some [(pos, .ofNat item.count)]
      else none }

theorem storesNamed_placesExactly (templates : ItemTemplates) :
    (storesNamed templates).PlacesExactly := by
  intro inventory pos item swap vec _ _ hcount hmax h
  obtain ⟨hcond, hvec⟩ := Option.ite_none_right_eq_some.mp h
  simp only [Bool.and_eq_true, Bool.or_eq_true, decide_eq_true_eq, Option.isNone_iff_eq_none] at hcond
  obtain ⟨hempty, hlt⟩ := hcond
  obtain rfl := Option.some.inj hvec
  have hsize : (UInt8.ofNat item.count).toNat = item.count := by
    rw [UInt8.toNat_ofNat', Nat.mod_eq_of_lt hlt]
  refine ⟨⟨List.nodup_singleton _, fun p hp => ?_⟩, fun p hp => ?_, ?_⟩
  · rw [List.mem_singleton.mp hp]
    refine ⟨hsize.trans_le hmax, fun a ha => ?_⟩
    cases swap with
    | true =>
      rw [if_pos rfl, Function.update_self] at ha
      cases ha
    | false =>
      rw [if_neg Bool.false_ne_true, hempty.resolve_right Bool.false_ne_true] at ha
      cases ha
  · rw [List.mem_singleton.mp hp]
    exact hcount.trans_eq hsize.symm
  · simp [hsize]

/-- A guild of its leader, with a tab of the bank. -/
def emptyTab : BankWorld :=
  { guild :=
      { leaderGuid := 1
        members := [.new 1 "Ada" 0]
        ranks := []
        bankTabs := [{ name := "", icon := "", text := "", items := fun _ => none }]
        bankMoney := 0
        bankLoaded := true }
    inventory := fun _ => none
    nextGuid := 2 }

def stackOf (count : ℕ) : Item :=
  { guid := 1
    entry := 7
    count := count
    soulBound := false
    canBeTraded := true
    notEmptyBag := false }

def firstTab : Fin guildBankMaxTabs := ⟨0, by decide⟩

def firstSlot : Fin guildBankMaxSlots := ⟨0, by decide⟩

def secondSlot : Fin guildBankMaxSlots := ⟨1, by decide⟩

/-- A stack in the first slot of the tab. -/
def tabOf (count : ℕ) : BankWorld :=
  emptyTab.setItem (.inl (firstTab, firstSlot)) (some (stackOf count))

theorem tabOf_sound {n count : ℕ} (hpos : 0 < count) (hmax : count ≤ n) :
    (tabOf count).SoundSlots fun _ => n := by
  have hempty : emptyTab.itemAt = fun _ => none := by
    funext l
    rcases l with ⟨tab, slot⟩ | p
    · show (emptyTab.guild.bankTabs[tab.val]?).bind _ = none
      rcases tab with ⟨_ | tab, htab⟩ <;> rfl
    · rfl
  have hplace : emptyTab.HasPlace (.inl (firstTab, firstSlot)) := Nat.zero_lt_one
  unfold SoundSlots tabOf
  rw [itemAt_setItem hplace, hempty]
  have hnew : Sound Item.entry Item.count Item.guid (fun _ => n) 2 (Function.update
      (fun _ : Location => none) (.inl (firstTab, firstSlot)) (some (stackOf count))) :=
    Lib.sound_empty.occupy ⟨hpos, hmax⟩ Nat.one_lt_two fun _ _ _ h => (nomatch h)
  exact hnew

/-- A part of a stack is split off and goes to a free slot of the tab. -/
theorem bank_moves_conserve_items_split :
    Conserves (fun _ => 1000) (tabOf 300) ((tabOf 300).moveItems (storesNamed fun _ => 1000) 1
      (.bank firstTab (some firstSlot)) (.bank firstTab (some secondSlot)) 20) :=
  (bank_moves_conserve_items_iff (storesNamed_placesExactly _)
    (tabOf_sound (by decide) (by decide)) 1 _ _ (.inl rfl) 20).mpr
    (allNarrow_of_lt (by decide +kernel))

/-- A stack of 300 items goes to a free slot, and 44 items arrive. -/
theorem bank_moves_lose_items :
    ¬ ∀ (E : BankEnv) (w : BankWorld), E.PlacesExactly → w.SoundSlots E.templates →
      ∀ (player : ℕ) (src dest : MoveItemData), (src.isBank = true ∨ dest.isBank = true) →
      ∀ splitedAmount : ℕ,
        Conserves E.templates w (w.moveItems E player src dest splitedAmount) := by
  intro h
  have hs : (tabOf 300).SoundSlots fun _ => 1000 := tabOf_sound (by decide) (by decide)
  have hkept := h (storesNamed fun _ => 1000) (tabOf 300) (storesNamed_placesExactly _) hs 1
    (.bank firstTab (some firstSlot)) (.bank firstTab (some secondSlot)) (.inl rfl) 0
  have hvec : (tabOf 300).canStore (storesNamed fun _ => 1000) (.bank firstTab (some secondSlot)) (stackOf 300)
      false = some [⟨.inl (firstTab, secondSlot), 44⟩] := by decide +kernel
  rw [moveItems_whole rfl rfl rfl rfl hvec] at hkept
  have hnarrow := (whole_conserves_iff (storesNamed_placesExactly _) hs (.inl rfl) rfl rfl hvec).mp
    hkept
  exact absurd (hnarrow [] (.inl (firstTab, secondSlot), 1000) _ rfl) (by decide)

end Sunstrider.Guilds.BankWorld
