import Mathlib.Algebra.Order.Group.Nat
import Mathlib.Data.Fintype.Prod
import Mathlib.Data.Fintype.Sum
import Sunstrider.Laws.Guilds.BankPlan

/-!
# Stores of the guild bank

A stack is stored by a plan, position after position. `storeItem_spec` says how many items a stored
plan adds, and `storeItem_sound` that the slots stay sound where all amounts fit into 8 bits.
-/

namespace Sunstrider.Guilds.BankWorld

open Sunstrider.Items (Item ItemTemplates getMaxStackSize)
open Sunstrider.Lib (Sound Fits total total_grow total_put total_shrink total_vacate)

variable {E : BankEnv} {w : BankWorld}

/-- How many items of an entry there are in the bank and in the inventory. -/
def count (w : BankWorld) (entry : ℕ) : ℕ := total Item.entry Item.count entry w.itemAt

/-- Stacks of sizes that are allowed, each item object in one slot, and guids from the generator. -/
def SoundSlots (templates : ItemTemplates) (w : BankWorld) : Prop :=
  Sound Item.entry Item.count Item.guid templates w.nextGuid w.itemAt

/-! ## Slots -/

variable {l : Location}

theorem hasPlace_of_itemAt {item : Item} (h : w.itemAt l = some item) : w.HasPlace l := by
  cases l with
  | inl p =>
    obtain ⟨t, ht, -⟩ := Option.bind_eq_some_iff.mp h
    obtain ⟨hlt, -⟩ := List.getElem?_eq_some_iff.mp ht
    exact hlt
  | inr p => trivial

theorem itemAt_setItem (h : w.HasPlace l) (o : Option Item) :
    (w.setItem l o).itemAt = Function.update w.itemAt l o := by
  funext l'
  cases l with
  | inl p =>
    obtain ⟨tab, slot⟩ := p
    cases l' with
    | inr p' => exact (Function.update_of_ne Sum.inr_ne_inl _ _).symm
    | inl p' =>
      obtain ⟨tab', slot'⟩ := p'
      show ((w.guild.bankTabs.modify tab _)[tab'.val]?).bind _ = _
      rw [List.getElem?_modify]
      by_cases htab : tab = tab'
      · subst htab
        rw [List.getElem?_eq_getElem h]
        show (if tab.val = tab.val then _ else _ : BankTab).items slot' = _
        rw [if_pos rfl]
        by_cases hslot : slot' = slot
        · rw [hslot, Function.update_self]
          exact Function.update_self ..
        · have hat : w.itemAt (.inl (tab, slot')) = w.guild.bankTabs[tab.val].items slot' := by
            show (w.guild.bankTabs[tab.val]?).bind _ = _
            rw [List.getElem?_eq_getElem h]
            rfl
          rw [Function.update_of_ne fun heq => hslot (by cases heq; rfl), hat]
          exact Function.update_of_ne hslot _ _
      · rw [Function.update_of_ne fun heq => htab (by cases heq; rfl)]
        show _ = (w.guild.bankTabs[tab'.val]?).bind _
        cases w.guild.bankTabs[tab'.val]? with
        | none => rfl
        | some t =>
          show (if tab.val = tab'.val then _ else t : BankTab).items slot' = _
          rw [if_neg fun heq => htab (Fin.ext heq)]
          rfl
  | inr p =>
    cases l' with
    | inl p' => exact (Function.update_of_ne Sum.inl_ne_inr _ _).symm
    | inr p' =>
      show Function.update w.inventory p o p' = _
      by_cases hp : p' = p
      · rw [hp, Function.update_self, Function.update_self]
      · rw [Function.update_of_ne hp, Function.update_of_ne fun heq => hp (Sum.inr_injective heq)]
        rfl

theorem itemAt_withNext (w : BankWorld) (n : ℕ) : itemAt { w with nextGuid := n } = w.itemAt := by
  funext l
  cases l <;> rfl

theorem count_withNext (w : BankWorld) (n entry : ℕ) :
    count { w with nextGuid := n } entry = w.count entry := by
  unfold count
  rw [itemAt_withNext]

/-- The tabs and the generator of guids are as they were, or further on. -/
structure Keeps (w w' : BankWorld) : Prop where
  tabs : w'.guild.bankTabs.length = w.guild.bankTabs.length
  nextGuid : w.nextGuid ≤ w'.nextGuid

theorem Keeps.refl (w : BankWorld) : w.Keeps w := ⟨rfl, le_rfl⟩

theorem Keeps.trans {w' w'' : BankWorld} (h : w.Keeps w') (h' : w'.Keeps w'') : w.Keeps w'' :=
  ⟨h'.tabs.trans h.tabs, h.nextGuid.trans h'.nextGuid⟩

theorem Keeps.hasPlace {w' : BankWorld} (h : w.Keeps w') (hl : w.HasPlace l) : w'.HasPlace l := by
  cases l with
  | inl p =>
    show _ < _
    rw [h.tabs]
    exact hl
  | inr p => trivial

theorem setItem_keeps (w : BankWorld) (l : Location) (o : Option Item) : w.Keeps (w.setItem l o) := by
  cases l with
  | inl p => exact ⟨List.length_modify .., le_rfl⟩
  | inr p => exact ⟨rfl, le_rfl⟩

/-! ## Storing -/

/-- The amounts of a plan as they are stored. -/
def stored (vec : List ItemPosCount) : List (Location × ℕ) := vec.map fun p => (p.pos, p.count.toNat)

theorem cloneItem_eq (item : Item) {n : ℕ} (hpos : 0 < n)
    (hmax : n ≤ getMaxStackSize E.templates item.entry) :
    w.cloneItem E item n = ({ w with nextGuid := w.nextGuid + 1 },
      some { item with guid := w.nextGuid, count := n, notEmptyBag := false }) := by
  unfold cloneItem
  rw [if_neg (by omega), min_eq_left hmax]

/-- Fewer than 256 items that have room in a stack are not too many for a new one. -/
theorem le_getMaxStackSize {templates : ItemTemplates} {entry n : ℕ} (hn : n < 256)
    (hmax : n ≤ templates entry) : n ≤ getMaxStackSize templates entry := by
  unfold getMaxStackSize
  split <;> omega

variable {p : ItemPosCount}

/-- What one position takes: the stack that is there grows, or a clone or the item itself is put there,
and a clone of nothing is not. -/
theorem storeItemAt_eq {item : Item} (clone : Bool) (hmax : p.count.toNat ≤ E.templates item.entry)
    :
    (∃ a, w.itemAt p.pos = some a ∧ w.storeItemAt E item p clone =
      w.setItem p.pos (some { a with count := a.count + p.count.toNat })) ∨
    (w.itemAt p.pos = none ∧ clone = true ∧ p.count.toNat = 0 ∧
      w.storeItemAt E item p clone = w) ∨
    (w.itemAt p.pos = none ∧ clone = true ∧ 0 < p.count.toNat ∧ w.storeItemAt E item p clone =
      { w with nextGuid := w.nextGuid + 1 }.setItem p.pos (some { item with
        guid := w.nextGuid
        count := p.count.toNat
        notEmptyBag := false })) ∨
    (w.itemAt p.pos = none ∧ clone = false ∧ w.storeItemAt E item p clone =
      w.setItem p.pos (some { item with count := p.count.toNat })) := by
  have hlt := p.count.toNat_lt
  unfold storeItemAt
  cases hat : w.itemAt p.pos with
  | some a => exact .inl ⟨a, rfl, rfl⟩
  | none =>
    cases clone with
    | false => exact .inr (.inr (.inr ⟨rfl, rfl, rfl⟩))
    | true =>
      by_cases hzero : p.count.toNat = 0
      · refine .inr (.inl ⟨rfl, rfl, hzero, ?_⟩)
        rw [if_pos rfl, cloneItem, if_pos (by omega)]
      · refine .inr (.inr (.inl ⟨rfl, rfl, Nat.pos_of_ne_zero hzero, ?_⟩))
        rw [if_pos rfl, cloneItem_eq item (Nat.pos_of_ne_zero hzero) (le_getMaxStackSize hlt hmax)]

/-- There is room for the count at the position. -/
def HasRoom (E : BankEnv) (w : BankWorld) (item : Item) (p : ItemPosCount) : Prop :=
  p.count.toNat ≤ E.templates item.entry ∧ ∀ a, w.itemAt p.pos = some a →
    a.entry = item.entry ∧ a.count + p.count.toNat ≤ E.templates item.entry

theorem storeItemAt_spec {item : Item} (clone : Bool) (hplace : w.HasPlace p.pos)
    (hroom : w.HasRoom E item p) :
    w.Keeps (w.storeItemAt E item p clone) ∧
      (∃ o, (w.storeItemAt E item p clone).itemAt = Function.update w.itemAt p.pos o) ∧
      ∀ entry, (w.storeItemAt E item p clone).count entry =
        w.count entry + if item.entry = entry then p.count.toNat else 0 := by
  rcases storeItemAt_eq clone hroom.1 with ⟨a, hat, heq⟩ | ⟨hat, -, hzero, heq⟩ |
    ⟨hat, -, hpos, heq⟩ | ⟨hat, -, heq⟩ <;> rw [heq]
  · refine ⟨setItem_keeps .., ⟨_, itemAt_setItem hplace _⟩, fun entry => ?_⟩
    unfold count
    rw [itemAt_setItem hplace, ← (hroom.2 a hat).1]
    exact total_grow entry hat rfl rfl
  · refine ⟨.refl w, ⟨none, ?_⟩, fun entry => ?_⟩
    · rw [← hat, Function.update_eq_self]
    · rw [hzero, ite_self, Nat.add_zero]
  · have hnext : w.Keeps { w with nextGuid := w.nextGuid + 1 } := ⟨rfl, Nat.le_succ _⟩
    refine ⟨hnext.trans (setItem_keeps ..), ⟨_, itemAt_setItem (hnext.hasPlace hplace) _⟩,
      fun entry => ?_⟩
    unfold count
    rw [itemAt_setItem (hnext.hasPlace hplace), itemAt_withNext]
    exact total_put entry hat _
  · refine ⟨setItem_keeps .., ⟨_, itemAt_setItem hplace _⟩, fun entry => ?_⟩
    unfold count
    rw [itemAt_setItem hplace]
    exact total_put entry hat _

/-- A plan that fits has room for its first part, and the rest of it still fits afterwards. -/
theorem hasRoom_of_fits {item : Item} {vec : List ItemPosCount}
    (h : Fits Item.entry Item.count E.templates item.entry w.itemAt (stored (p :: vec))) :
    w.HasRoom E item p := h.room (p.pos, p.count.toNat) List.mem_cons_self

theorem fits_rest {item : Item} {vec : List ItemPosCount} {clone : Bool} (hplace : w.HasPlace p.pos)
    (h : Fits Item.entry Item.count E.templates item.entry w.itemAt (stored (p :: vec))) :
    Fits Item.entry Item.count E.templates item.entry (w.storeItemAt E item p clone).itemAt
      (stored vec) := by
  obtain ⟨-, ⟨o, heq⟩, -⟩ := storeItemAt_spec clone hplace (hasRoom_of_fits h)
  rw [heq]
  exact h.rest o

theorem storeItem_cons (item : Item) (p : ItemPosCount) (vec : List ItemPosCount) (w : BankWorld) :
    storeItem E item (p :: vec) w = storeItem E item vec (w.storeItemAt E item p !vec.isEmpty) := by
  cases vec <;> rfl

/-- **What is stored by a plan**: the counts of its positions, and only these are written. -/
theorem storeItem_spec {item : Item} (vec : List ItemPosCount) {w : BankWorld}
    (hplaces : ∀ p ∈ vec, w.HasPlace p.pos)
    (hfits : Fits Item.entry Item.count E.templates item.entry w.itemAt (stored vec)) :
    w.Keeps (storeItem E item vec w) ∧
      (∀ l, (∀ p ∈ vec, p.pos ≠ l) → (storeItem E item vec w).itemAt l = w.itemAt l) ∧
      ∀ entry, (storeItem E item vec w).count entry =
        w.count entry + if item.entry = entry then ((stored vec).map Prod.snd).sum else 0 := by
  induction vec generalizing w with
  | nil => exact ⟨.refl w, fun _ _ => rfl, fun entry => by simp [storeItem, stored]⟩
  | cons p vec ih =>
    have hplace := hplaces p List.mem_cons_self
    obtain ⟨hkeeps, ⟨o, heq⟩, hcount⟩ :=
      storeItemAt_spec (!vec.isEmpty) hplace (hasRoom_of_fits hfits)
    obtain ⟨hkeeps', hframe', hcount'⟩ := ih
      (fun q hq => hkeeps.hasPlace (hplaces q (List.mem_cons_of_mem p hq))) (fits_rest hplace hfits)
    rw [storeItem_cons]
    refine ⟨hkeeps.trans hkeeps', fun l hl => ?_, fun entry => ?_⟩
    · rw [hframe' l fun q hq => hl q (List.mem_cons_of_mem p hq), heq,
        Function.update_of_ne fun h => hl p List.mem_cons_self h.symm]
    · have hsum : ((stored (p :: vec)).map Prod.snd).sum =
          p.count.toNat + ((stored vec).map Prod.snd).sum := rfl
      rw [hcount', hcount, hsum]
      split <;> omega

/-- The guid is given out, and no item object in a slot has it. -/
def Free (w : BankWorld) (guid : ℕ) : Prop :=
  guid < w.nextGuid ∧ ∀ l a, w.itemAt l = some a → a.guid ≠ guid

theorem Free.setItem {guid : ℕ} (h : w.Free guid) (hl : w.HasPlace l) {a : Item}
    (ha : a.guid ≠ guid) : (w.setItem l (some a)).Free guid := by
  refine ⟨h.1.trans_le (setItem_keeps ..).nextGuid, fun l' b hb => ?_⟩
  rw [itemAt_setItem hl] at hb
  by_cases heq : l' = l
  · rw [heq, Function.update_self] at hb
    exact Option.some.inj hb ▸ ha
  · rw [Function.update_of_ne heq] at hb
    exact h.2 l' b hb

/-- A position that takes something leaves the slots sound. Guids that are free stay so, but for that
of the item where it is not cloned. -/
theorem storeItemAt_sound {item : Item} {clone : Bool} (hs : w.SoundSlots E.templates)
    (hfree : w.Free item.guid) (hpos : 0 < p.count.toNat) (hplace : w.HasPlace p.pos)
    (hroom : w.HasRoom E item p) :
    (w.storeItemAt E item p clone).SoundSlots E.templates ∧
      ∀ guid, w.Free guid → (clone = true ∨ guid ≠ item.guid) →
        (w.storeItemAt E item p clone).Free guid := by
  rcases storeItemAt_eq clone hroom.1 with ⟨a, hat, heq⟩ | ⟨-, -, hzero, -⟩ |
    ⟨hat, -, -, heq⟩ | ⟨hat, hclone, heq⟩
  · obtain ⟨hentry, hle⟩ := hroom.2 a hat
    rw [heq]
    refine ⟨?_, fun guid hguid _ => hguid.setItem hplace (hguid.2 _ a hat)⟩
    unfold SoundSlots
    rw [itemAt_setItem hplace]
    have hsize : 0 < ({ a with count := a.count + p.count.toNat } : Item).count ∧
        ({ a with count := a.count + p.count.toNat } : Item).count ≤ E.templates a.entry :=
      ⟨Nat.add_pos_right _ hpos, hentry ▸ hle⟩
    have hgrown : Sound Item.entry Item.count Item.guid E.templates w.nextGuid (Function.update
        w.itemAt p.pos (some { a with count := a.count + p.count.toNat })) :=
      hs.resize hat rfl hsize
    exact hgrown.mono (setItem_keeps w _ _).nextGuid
  · omega
  · have hnext : w.Keeps { w with nextGuid := w.nextGuid + 1 } := ⟨rfl, Nat.le_succ _⟩
    have hplace' := hnext.hasPlace hplace
    rw [heq]
    refine ⟨?_, fun guid hguid _ => ?_⟩
    · unfold SoundSlots
      rw [itemAt_setItem hplace']
      have hs' := hs.mono (Nat.le_succ w.nextGuid)
      have hclone : Sound Item.entry Item.count Item.guid E.templates (w.nextGuid + 1)
          (Function.update w.itemAt p.pos (some { item with
            guid := w.nextGuid
            count := p.count.toNat
            notEmptyBag := false })) :=
        hs'.occupy ⟨hpos, hroom.1⟩ (Nat.lt_succ_self _) fun l a _ ha => (hs.old l a ha).ne
      exact hclone.mono (setItem_keeps { w with nextGuid := w.nextGuid + 1 } _ _).nextGuid
    · have hguid' : Free { w with nextGuid := w.nextGuid + 1 } guid :=
        ⟨hguid.1.trans (Nat.lt_succ_self _), hguid.2⟩
      exact hguid'.setItem hplace' hguid.1.ne'
  · rw [heq]
    refine ⟨?_, fun guid hguid hor => hguid.setItem hplace (hor.resolve_left ?_).symm⟩
    · unfold SoundSlots
      rw [itemAt_setItem hplace]
      have hsize : 0 < ({ item with count := p.count.toNat } : Item).count ∧
          ({ item with count := p.count.toNat } : Item).count ≤ E.templates item.entry :=
        ⟨hpos, hroom.1⟩
      have hput : Sound Item.entry Item.count Item.guid E.templates w.nextGuid (Function.update
          w.itemAt p.pos (some { item with count := p.count.toNat })) :=
        hs.occupy hsize hfree.1 fun l a _ ha => hfree.2 l a ha
      exact hput.mono (setItem_keeps w _ _).nextGuid
    · rw [hclone]
      exact Bool.false_ne_true

/-- **What is stored by a plan without empty parts leaves the slots sound.** -/
theorem storeItem_sound {item : Item} (vec : List ItemPosCount) {w : BankWorld}
    (hs : w.SoundSlots E.templates) (hfree : w.Free item.guid)
    (hpos : ∀ p ∈ vec, 0 < p.count.toNat) (hplaces : ∀ p ∈ vec, w.HasPlace p.pos)
    (hfits : Fits Item.entry Item.count E.templates item.entry w.itemAt (stored vec)) :
    (storeItem E item vec w).SoundSlots E.templates ∧
      ∀ guid, w.Free guid → guid ≠ item.guid → (storeItem E item vec w).Free guid := by
  induction vec generalizing w with
  | nil => exact ⟨hs, fun _ hguid _ => hguid⟩
  | cons p vec ih =>
    have hplace := hplaces p List.mem_cons_self
    have hroom := hasRoom_of_fits hfits
    obtain ⟨hsound, hkept⟩ :
        (w.storeItemAt E item p !vec.isEmpty).SoundSlots E.templates ∧
          ∀ guid, w.Free guid → ((!vec.isEmpty) = true ∨ guid ≠ item.guid) →
            (w.storeItemAt E item p !vec.isEmpty).Free guid :=
      storeItemAt_sound hs hfree (hpos p List.mem_cons_self) hplace hroom
    have hkeeps := (storeItemAt_spec (!vec.isEmpty) hplace hroom).1
    cases vec with
    | nil => exact ⟨hsound, fun guid hguid hne => hkept guid hguid (.inr hne)⟩
    | cons q vec =>
      obtain ⟨hsound', hkept'⟩ := ih hsound (hkept _ hfree (.inl rfl))
        (fun r hr => hpos r (List.mem_cons_of_mem p hr))
        (fun r hr => hkeeps.hasPlace (hplaces r (List.mem_cons_of_mem p hr)))
        (fits_rest hplace hfits)
      exact ⟨hsound', fun guid hguid hne => hkept' guid (hkept guid hguid (.inl rfl)) hne⟩

/-! ## A plan and its positions -/

/-- What a planned stack amounts to when it is stored. -/
def storedCount (plan : List (Location × ℕ)) : ℕ := (plan.map fun p => p.2 % 256).sum

theorem storedCount_le (plan : List (Location × ℕ)) :
    storedCount plan ≤ (plan.map Prod.snd).sum :=
  List.sum_le_sum fun p _ => Nat.mod_le p.2 256

/-- A plan is stored in full just if all of its amounts fit into 8 bits. -/
theorem storedCount_eq_iff (plan : List (Location × ℕ)) :
    storedCount plan = (plan.map Prod.snd).sum ↔ ∀ p ∈ plan, p.2 < 256 := by
  induction plan with
  | nil => simp [storedCount]
  | cons p plan ih =>
    have hle := storedCount_le plan
    have hcons : storedCount (p :: plan) = p.2 % 256 + storedCount plan := rfl
    rw [hcons, List.map_cons, List.sum_cons, List.forall_mem_cons, ← ih]
    constructor
    · intro h
      have hp : p.2 % 256 = p.2 := by omega
      exact ⟨hp ▸ Nat.mod_lt p.2 (by decide), by omega⟩
    · rintro ⟨hp, h⟩
      rw [h, Nat.mod_eq_of_lt hp]

variable {self : MoveItemData} {item : Item} {swap : Bool} {plan : List (Location × ℕ)}
  {vec : List ItemPosCount}

theorem stored_ofPlan (plan : List (Location × ℕ)) :
    stored (plan.map .ofPlan) = plan.map fun p => (p.1, p.2 % 256) := by
  unfold stored
  rw [List.map_map]
  refine List.map_congr_left fun p _ => ?_
  show (p.1, (ItemPosCount.ofPlan p).count.toNat) = _
  rw [ItemPosCount.ofPlan_count]

section

variable (h : w.Planned E self item swap plan vec)

include h

theorem Planned.stored_sum : ((stored vec).map Prod.snd).sum = storedCount plan := by
  rw [h.vec_eq, stored_ofPlan, List.map_map]
  rfl

theorem Planned.storedCount_le :
    storedCount plan ≤ item.count := h.sum_eq ▸ BankWorld.storedCount_le plan

/-- The stack is stored in full just if it is narrow. -/
theorem Planned.storedCount_eq_iff : storedCount plan = item.count ↔ w.Narrow E self item swap := by
  rw [← h.sum_eq, BankWorld.storedCount_eq_iff, h.narrow]

theorem Planned.hasPlace : ∀ p ∈ vec, w.HasPlace p.pos := by
  intro p hp
  rw [h.vec_eq] at hp
  obtain ⟨q, hq, rfl⟩ := List.mem_map.mp hp
  exact h.places q hq

/-- The positions fit where the slots are as they were planned with, or less full. -/
theorem Planned.stored_fits {s : Location → Option Item}
    (hs : ∀ l a, s l = some a → l ∈ plan.map Prod.fst → ∃ b, w.seen self item swap l = some b ∧
      a.entry = b.entry ∧ a.count ≤ b.count) :
    Fits Item.entry Item.count E.templates item.entry s (stored vec) := by
  rw [h.vec_eq, stored_ofPlan]
  exact (h.fits.mono fun p hp a ha => hs p.1 a ha (List.mem_map_of_mem hp)).map_le
    (Nat.mod_le · 256)

/-- No position of a narrow stack is left empty. -/
theorem Planned.stored_pos
    (hnarrow : w.Narrow E self item swap) : ∀ p ∈ vec, 0 < p.count.toNat := by
  intro p hp
  rw [h.vec_eq] at hp
  obtain ⟨q, hq, rfl⟩ := List.mem_map.mp hp
  rw [ItemPosCount.ofPlan_count, Nat.mod_eq_of_lt (h.narrow.mpr hnarrow q hq)]
  exact h.pos q hq

end

end Sunstrider.Guilds.BankWorld
