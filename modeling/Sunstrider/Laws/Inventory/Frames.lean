import Sunstrider.Lib.Run
import Sunstrider.Laws.Inventory.Plans

/-!
# The bank and the rest

What is planned for a position outside the bank stays outside the bank, and what is planned for one in
the bank stays in it (`canStoreItemFrom_asked`, `canBankItemFrom_asked`). A move between two positions
outside the bank leaves the bank (`swapItem_keepsBank`).
-/

namespace Sunstrider.Inventory

variable {T : Templates} {R : Rules}

/-! ## Positions -/

theorem isBankPos_of_own {p : Pos} (hp : p.1 = inventorySlotBag0) :
    isBankPos p = (isBankSlot p.2 || isBankBagSlot p.2) := by
  have hbag : isBankBagSlot inventorySlotBag0 = false := by decide
  simp [isBankPos, hp, hbag]

theorem isBankPos_of_inside {p : Pos} (hp : p.1 ≠ inventorySlotBag0) :
    isBankPos p = isBankBagSlot p.1 := by
  simp [isBankPos, hp]

theorem not_bank_of_isStorePos {p : Pos} (h : isStorePos p = true) : isBankPos p = false := by
  by_cases hp : p.1 = inventorySlotBag0
  · have hbag : isInventoryBagSlot inventorySlotBag0 = false := by decide
    rw [isBankPos_of_own hp]
    simp only [isStorePos, hp, hbag, decide_true, Bool.true_and, Bool.or_false, Bool.or_eq_true,
      isInventorySlot, isKeyringSlot, Bool.and_eq_true, decide_eq_true_eq] at h
    simp only [isBankSlot, isBankBagSlot, Bool.or_eq_false_iff, Bool.and_eq_false_iff,
      decide_eq_false_iff_not]
    omega
  · rw [isBankPos_of_inside hp]
    simp only [isStorePos, hp, decide_false, Bool.false_and, Bool.false_or, isInventoryBagSlot,
      Bool.and_eq_true, decide_eq_true_eq] at h
    simp only [isBankBagSlot, Bool.and_eq_false_iff, decide_eq_false_iff_not]
    omega

theorem bank_of_isBankStorePos {p : Pos} (h : isBankStorePos p = true) : isBankPos p = true := by
  simp only [isBankStorePos, Bool.or_eq_true, Bool.and_eq_true] at h
  simp only [isBankPos, Bool.or_eq_true, Bool.and_eq_true]
  tauto

/-- What is worn is not in the bank. -/
theorem not_bank_of_isEquipmentPos {p : Pos} (h : isEquipmentPos p = true) :
    p.1 = inventorySlotBag0 ∧ isBankPos p = false := by
  simp only [isEquipmentPos, Bool.or_eq_true, Bool.and_eq_true, decide_eq_true_eq,
    isInventoryBagSlot] at h
  have hown : p.1 = inventorySlotBag0 := h.elim And.left And.left
  refine ⟨hown, ?_⟩
  rw [isBankPos_of_own hown]
  simp only [isBankSlot, isBankBagSlot, Bool.or_eq_false_iff, Bool.and_eq_false_iff,
    decide_eq_false_iff_not]
  omega

theorem not_bank_of_isInventoryPos {p : Pos} (h : isInventoryPos p = true) : isBankPos p = false := by
  simp only [isInventoryPos, Bool.or_eq_true, Bool.and_eq_true, decide_eq_true_eq] at h
  rcases h with ((⟨hp, hslot⟩ | ⟨hp, hslot⟩) | hbag) | ⟨hp, hslot⟩
  · rw [isBankPos_of_own hp, hslot]
    decide
  · exact not_bank_of_isStorePos (by simp [isStorePos, hp, hslot])
  · exact not_bank_of_isStorePos (by simp [isStorePos, hbag])
  · exact not_bank_of_isStorePos (by simp [isStorePos, hp, hslot])

theorem own_eq {p : Pos} (hp : p.1 = inventorySlotBag0) : (inventorySlotBag0, p.2) = p :=
  Prod.ext hp.symm rfl

theorem equipment_slot_lt {p : Pos} (h : isEquipmentPos p = true) : p.2.val < 23 := by
  simp only [isEquipmentPos, isInventoryBagSlot, Bool.or_eq_true, Bool.and_eq_true,
    decide_eq_true_eq] at h
  omega

theorem equipment_slot_ne_null {p : Pos} (h : isEquipmentPos p = true) : p.2 ≠ nullSlot := by
  have hslot := equipment_slot_lt h
  intro heq
  rw [heq] at hslot
  exact absurd hslot (by decide)

theorem not_inventory_of_isEquipmentPos {p : Pos} (h : isEquipmentPos p = true) :
    isInventoryPos p = false := by
  have hown := (not_bank_of_isEquipmentPos h).1
  have hslot := equipment_slot_lt h
  have hnull := equipment_slot_ne_null h
  have hbag : isInventoryBagSlot inventorySlotBag0 = false := by decide
  simp only [isInventoryPos, hown, hnull, hbag, isInventorySlot, isKeyringSlot, decide_true,
    decide_false, Bool.true_and, Bool.false_or, Bool.or_false, Bool.or_eq_false_iff,
    Bool.and_eq_false_iff, decide_eq_false_iff_not]
  omega

theorem isContainer_of_isInventoryPos {p : Pos} (h : isInventoryPos p = true) :
    isContainer p.1 = true := by
  simp only [isInventoryPos, Bool.or_eq_true, Bool.and_eq_true, decide_eq_true_eq] at h
  simp only [isContainer, isBagSlot, Bool.or_eq_true, decide_eq_true_eq]
  tauto

theorem isContainer_of_isBankPos {p : Pos} (h : isBankPos p = true) : isContainer p.1 = true := by
  simp only [isBankPos, Bool.or_eq_true, Bool.and_eq_true, decide_eq_true_eq] at h
  simp only [isContainer, isBagSlot, Bool.or_eq_true, decide_eq_true_eq]
  tauto

namespace Player

variable {v : Player} {p q : Pos} {item : Item} {swap : Bool}

/-! ## What is asked for -/

/-- The positions of a plan: the one that is asked for, those in the bag that is, and those of a
kind. -/
def Asked (kind : Pos → Bool) (p q : Pos) : Prop :=
  isSpecific p = true ∧ q = p ∨ isBagSlot p.1 = true ∧ q.1 = p.1 ∨ kind q = true

/-- What `CanStoreItem` is asked for outside the bank is outside it. -/
theorem Asked.not_bank (h : Asked isStorePos p q) (hp : isBankPos p = false) :
    isBankPos q = false := by
  rcases h with ⟨-, rfl⟩ | ⟨hbag, hq⟩ | h
  · exact hp
  · rw [isBankPos_of_inside (bagSlot_ne_bag0 hbag)] at hp
    rw [isBankPos_of_inside (hq ▸ bagSlot_ne_bag0 hbag), hq]
    exact hp
  · exact not_bank_of_isStorePos h

/-- What `CanBankItem` is asked for in the bank is in it. -/
theorem Asked.bank (h : Asked isBankStorePos p q) (hp : isBankPos p = true) :
    isBankPos q = true := by
  rcases h with ⟨-, rfl⟩ | ⟨hbag, hq⟩ | h
  · exact hp
  · rw [isBankPos_of_inside (bagSlot_ne_bag0 hbag)] at hp
    rw [isBankPos_of_inside (hq ▸ bagSlot_ne_bag0 hbag), hq]
    exact hp
  · exact bank_of_isBankStorePos h

/-- The positions that are found are those from before and those that are asked for. -/
def Within (kind : Pos → Bool) (p : Pos) (dest : List ItemPosCount) (s : Search) : Prop :=
  ∀ c ∈ s.dest, c ∈ dest ∨ Asked kind p c.pos

variable {kind : Pos → Bool} {dest dest' : List ItemPosCount} {s : Search}

theorem Within.take (h : Within kind p dest s) (hq : Asked kind p q) (n : ℕ) :
    Within kind p dest (s.take q n) := by
  unfold Search.take
  split
  · exact h
  · intro c hc
    rcases List.mem_append.mp hc with hc | hc
    · exact h c hc
    · rw [List.mem_singleton.mp hc]
      exact .inr hq

theorem kept_within (dest : List ItemPosCount) :
    Kept T v item kind p (Within kind p dest) fun _ => True where
  going _ := trivial
  take h _ _ _ hq := h.take (.inr hq.asked) _

theorem within_specific (hp : isSpecific p = true) {n : ℕ}
    (h : v.canStoreItemInSpecificSlot T item p swap ⟨dest, n⟩ = .ok s) : Within kind p dest s := by
  have hstart : Within kind p dest ⟨dest, n⟩ := fun c hc => .inl hc
  rcases specificSlot_cases h with ⟨_, _, _, _, _, rfl⟩ | ⟨_, _, rfl⟩
  · exact hstart.take (.inl ⟨hp, rfl⟩) _
  · exact hstart.take (.inl ⟨hp, rfl⟩) _

section

variable (hp : isContainer p.1 = true)

include hp

/-- `CanStoreItem` answers with positions that are asked for. -/
theorem canStoreItemFrom_asked {res : InventoryResult}
    (h : v.canStoreItemFrom T item p swap dest = (res, dest')) :
    ∀ c ∈ dest', c ∈ dest ∨ Asked isStorePos p c.pos := by
  rcases Kept.canStoreItemFrom (fun _ => kept_within dest) hp
    (fun _ _ => ⟨fun c hc => .inl hc, trivial⟩) (fun hp _ _ _ => within_specific hp) h with
    ⟨-, rfl⟩ | ⟨_, s, hs, rfl, -⟩
  · exact fun c hc => .inl hc
  · exact hs

/-- `CanBankItem` answers with positions that are asked for. -/
theorem canBankItemFrom_asked {res : InventoryResult}
    (h : v.canBankItemFrom T R item p swap dest = (res, dest')) :
    ∀ c ∈ dest', c ∈ dest ∨ Asked isBankStorePos p c.pos := by
  rcases Kept.canBankItemFrom (kept_within dest) hp
    (fun _ => ⟨fun c hc => .inl hc, trivial⟩) (fun hp _ _ => within_specific hp) h with
    ⟨-, rfl⟩ | ⟨s, hs, rfl, -⟩
  · exact fun c hc => .inl hc
  · exact hs

theorem canStoreItem_asked
    (h : v.canStoreItem T item p swap = (.ok, dest)) : ∀ c ∈ dest, Asked isStorePos p c.pos := by
  intro c hc
  exact (canStoreItemFrom_asked hp h c hc).resolve_left List.not_mem_nil

theorem canBankItem_asked (h : v.canBankItem T R item p swap = (.ok, dest)) :
    ∀ c ∈ dest, Asked isBankStorePos p c.pos := by
  intro c hc
  exact (canBankItemFrom_asked hp h c hc).resolve_left List.not_mem_nil

end

/-! ## Equipment -/

variable {proto : ItemTemplate} {slot : Fin 256}

theorem mem_equipSlots (h : slot ∈ equipSlots R proto) :
    slot.val < 23 ∧ (19 ≤ slot.val → proto.inventoryType = .bag) := by
  have hworn : slot.val < 19 → slot.val < 23 ∧ (19 ≤ slot.val → proto.inventoryType = .bag) := by
    intro hlt
    exact ⟨by omega, fun hle => absurd hle (by omega)⟩
  unfold equipSlots at h
  cases htype : proto.inventoryType <;> rw [htype] at hworn h <;>
    simp only [List.mem_cons, List.not_mem_nil, or_false] at h
  case weapon =>
    split at h <;> simp only [List.mem_cons, List.not_mem_nil, or_false] at h <;>
      (apply hworn; rcases h with rfl | rfl <;> decide)
  case relic =>
    split at h
    · apply hworn
      rw [List.mem_singleton.mp h]
      decide
    · cases h
  case bag =>
    refine ⟨?_, fun _ => rfl⟩
    rcases h with rfl | rfl | rfl | rfl <;> decide
  case finger => exact hworn (by rcases h with rfl | rfl <;> decide)
  case trinket => exact hworn (by rcases h with rfl | rfl <;> decide)
  all_goals exact hworn (by rw [h]; decide)

theorem findEquipSlot_mem {e : Fin 256} (h : v.findEquipSlot T R proto slot swap = some e) :
    e ∈ equipSlots R proto := by
  unfold findEquipSlot at h
  dsimp only at h
  split at h
  · split at h
    · exact List.mem_of_find?_eq_some h
    · cases h
  · split at h
    · next hfind =>
      cases h
      exact List.mem_of_find?_eq_some hfind
    · split at h
      · exact List.mem_of_mem_head? h
      · cases h

/-- A slot that is asked for and not free is not found, unless what is in it changes places. -/
theorem findEquipSlot_free {e : Fin 256} (hslot : slot ≠ nullSlot)
    (h : v.findEquipSlot T R proto slot false = some e) :
    v.getItemByPos T (inventorySlotBag0, slot) = none := by
  unfold findEquipSlot at h
  simp only [hslot, ne_eq, not_false_eq_true, if_true, Bool.false_or] at h
  split at h
  · next hfree => exact Option.isNone_iff_eq_none.mp hfree
  · cases h

theorem canEquipItem_ok {e : Pos} (h : v.canEquipItem T R item slot swap = .ok e) :
    e.1 = inventorySlotBag0 ∧ v.findEquipSlot T R (T item.entry) slot swap = some e.2 ∧
      (swap = false → v.getItemByPos T e = none) := by
  suffices hall : Lib.Answers (v.canEquipItem T R item slot swap) fun e =>
      e.1 = inventorySlotBag0 ∧ v.findEquipSlot T R (T item.entry) slot swap = some e.2 ∧
        (swap = false → v.getItemByPos T e = none) from hall e h
  unfold canEquipItem
  refine .guard fun _ => .guard fun _ => ?_
  split
  · exact .error
  · split
    · exact .error
    · next eslot hslot =>
      refine .guard fun _ => .guard fun hfree => ?_
      have hfound : (inventorySlotBag0, eslot).1 = inventorySlotBag0 ∧
          v.findEquipSlot T R (T item.entry) slot swap = some (inventorySlotBag0, eslot).2 ∧
            (swap = false → v.getItemByPos T (inventorySlotBag0, eslot) = none) := by
        refine ⟨rfl, hslot, ?_⟩
        rintro rfl
        simpa [Option.isNone_iff_eq_none] using hfree
      split
      · exact .error
      · refine .guard fun _ => .guard fun _ => ?_
        split
        · refine .guard fun _ => ?_
          dsimp only
          cases v.getItemByPos T (inventorySlotBag0, equipmentSlotOffhand) with
          | none => exact .ok hfound
          | some offItem => exact .guard fun _ => .ok hfound
        · exact .ok hfound

/-- `CanEquipItem` answers with a slot of the equipment. -/
theorem canEquipItem_pos {e : Pos} (h : v.canEquipItem T R item slot swap = .ok e) :
    isEquipmentPos e = true := by
  obtain ⟨hown, hfind, -⟩ := canEquipItem_ok h
  have hslot := (mem_equipSlots (findEquipSlot_mem hfind)).1
  simp only [isEquipmentPos, hown, isInventoryBagSlot, decide_true, Bool.true_and, Bool.or_eq_true,
    Bool.and_eq_true, decide_eq_true_eq]
  omega

/-! ## Plans -/

variable {plan : Plan}

/-- A plan stores in the inventory, stores in the bank, or equips, as the position is. -/
theorem planItem_ok (h : v.planItem T R item p swap = .ok plan) :
    (isInventoryPos p = true ∧
        ∃ dest, plan = .stored dest ∧ v.canStoreItem T item p swap = (.ok, dest)) ∨
      (isInventoryPos p = false ∧ isBankPos p = true ∧
        ∃ dest, plan = .stored dest ∧ v.canBankItem T R item p swap = (.ok, dest)) ∨
      isEquipmentPos p = true ∧ ∃ e, plan = .equipped e ∧ v.canEquipItem T R item p.2 swap = .ok e := by
  unfold planItem at h
  dsimp only at h
  split at h
  next hinv =>
    split at h
    · next dest hdest =>
      cases h
      exact .inl ⟨hinv, dest, rfl, hdest⟩
    · cases h
  next hinv =>
    split at h
    · next hbank =>
      split at h
      · next dest hdest =>
        cases h
        exact .inr (.inl ⟨Bool.eq_false_iff.mpr hinv, hbank, dest, rfl, hdest⟩)
      · cases h
    · split at h
      · next hequip =>
        cases hcan : v.canEquipItem T R item p.2 swap with
        | error res =>
          rw [hcan] at h
          cases h
        | ok e =>
          rw [hcan] at h
          cases h
          exact .inr (.inr ⟨hequip, e, rfl, rfl⟩)
      · cases h

theorem planSwap_ok (h : v.planSwap T R item p = .ok plan) :
    v.planItem T R item p true = .ok plan := by
  unfold planSwap at h
  split at h
  · next e he =>
    split at h
    · cases h
      exact he
    · cases h
  · exact h

/-! ## What keeps the generator -/

theorem equipItem_nextGuid (v : Player) (p : Pos) : (v.equipItem T p item).nextGuid = v.nextGuid := by
  unfold equipItem
  split
  · exact setItem_nextGuid ..
  · exact setItem_nextGuid ..

/-! ## What keeps the bank -/

/-- The positions of the bank hold the same items, with the same counts. -/
def KeepsBank (T : Templates) (v v' : Player) : Prop :=
  ∀ q, isBankPos q = true → v'.stackAt T q = v.stackAt T q

variable {v' : Player}

@[simp] theorem KeepsBank.refl (v : Player) : KeepsBank T v v := fun _ _ => rfl

theorem KeepsBank.trans {v'' : Player} (h : KeepsBank T v v') (h' : KeepsBank T v' v'') :
    KeepsBank T v v'' := fun q hq => (h' q hq).trans (h q hq)

theorem keepsBank_of_items (h : v'.items = v.items) : KeepsBank T v v' := by
  intro q _
  rw [stackAt_of_items h]

theorem keepsBank_setItem (hp : isBankPos p = false) (o : Option Item) :
    KeepsBank T v (v.setItem p o) := fun _ hq => stackAt_setItem_of_not_bank hp hq o

theorem keepsBank_removeItem (hp : isBankPos p = false) : KeepsBank T v (v.removeItem T p) := by
  unfold removeItem
  split
  · exact keepsBank_setItem hp none
  · exact .refl v

theorem keepsBank_setCount (hp : isBankPos p = false) (n : ℕ) :
    KeepsBank T v (v.setCount T p n) := keepsBank_setItem hp _

/-- Storing by a plan that stays outside leaves the bank. -/
theorem keepsBank_storeItem (dest : List ItemPosCount) {v : Player}
    (h : ∀ c ∈ dest, isBankPos c.pos = false) : KeepsBank T v (storeItem T item dest v) := by
  have hone : ∀ (v : Player) (c : ItemPosCount) (clone : Bool), isBankPos c.pos = false →
      KeepsBank T v (v.storeItemAt T item c clone) := by
    intro v c clone hc
    obtain ⟨v', o, heq, hitems⟩ := v.storeItemAt_eq_setItem (T := T) item c clone
    rw [heq]
    exact (keepsBank_of_items hitems).trans (keepsBank_setItem hc o)
  induction dest generalizing v with
  | nil => exact .refl v
  | cons c dest ih =>
    have hc := h c List.mem_cons_self
    cases dest with
    | nil => exact hone v c false hc
    | cons d dest =>
      apply (hone v c true hc).trans
      apply ih
      intro e he
      exact h e (List.mem_cons_of_mem c he)

theorem keepsBank_equipItem (hp : isEquipmentPos p = true) : KeepsBank T v (v.equipItem T p item) := by
  obtain ⟨hown, hbank⟩ := not_bank_of_isEquipmentPos hp
  have hpos := own_eq hown
  unfold equipItem
  split
  · exact keepsBank_setItem hbank _
  · rw [hpos]
    exact keepsBank_setItem hbank _

theorem keepsBank_autoUnequipOffhand (v : Player) :
    KeepsBank T v (v.autoUnequipOffhandIfNeed T) := by
  unfold autoUnequipOffhandIfNeed
  dsimp only
  split
  · next offItem mainItem hoff hmain =>
    split
    · exact .refl v
    · split
      · next dest hdest =>
        have hall : isBankPos (nullBag, nullSlot) = false := by decide
        have hslot : isBankPos (inventorySlotBag0, equipmentSlotOffhand) = false := by decide
        apply (keepsBank_removeItem hslot).trans
        apply keepsBank_storeItem
        intro c hc
        exact (canStoreItem_asked (by decide) hdest c hc).not_bank hall
      · exact .refl v
  · exact .refl v

/-- A plan that puts nothing in the bank. -/
def Outside : Plan → Prop
  | .stored dest => ∀ c ∈ dest, isBankPos c.pos = false
  | .equipped e => isEquipmentPos e = true

/-- A plan for a position outside the bank stays outside. -/
theorem planItem_outside (hp : isBankPos p = false) (h : v.planItem T R item p swap = .ok plan) :
    Outside plan := by
  rcases planItem_ok h with ⟨hinv, dest, rfl, hdest⟩ | ⟨-, hbank, -⟩ | ⟨-, e, rfl, he⟩
  · intro c hc
    exact (canStoreItem_asked (isContainer_of_isInventoryPos hinv) hdest c hc).not_bank hp
  · rw [hp] at hbank
    cases hbank
  · exact canEquipItem_pos he

theorem planSwap_outside (hp : isBankPos p = false) (h : v.planSwap T R item p = .ok plan) :
    Outside plan := planItem_outside hp (planSwap_ok h)

theorem keepsBank_carryOut (h : Outside plan) : KeepsBank T v (carryOut T item plan v) := by
  cases plan with
  | stored dest => exact keepsBank_storeItem dest h
  | equipped e => exact keepsBank_equipItem h

theorem keepsBank_place (h : Outside plan) : KeepsBank T v (place T item plan v) := by
  cases plan with
  | stored dest => exact keepsBank_carryOut h
  | equipped e => exact (keepsBank_carryOut h).trans (keepsBank_autoUnequipOffhand _)

/-! ## Moves outside the bank -/

variable {dst src : Pos}

/-- A split between positions outside the bank leaves the bank. -/
theorem splitItem_keepsBank {count : ℕ} (hsrc : isBankPos src = false)
    (hdst : isBankPos dst = false) : KeepsBank T v (v.splitItem T R src dst count) := by
  unfold splitItem
  split
  · exact .refl v
  · next srcItem hat =>
    split
    · exact .refl v
    · have hclone : KeepsBank T v (v.cloneItem T srcItem count).1 := keepsBank_of_items rfl
      dsimp only
      split
      · next plan hplan =>
        apply hclone.trans
        apply (keepsBank_setCount hsrc _).trans
        exact keepsBank_place (planItem_outside hdst hplan)
      · exact hclone

/-- So does an exchange of two items. -/
theorem exchange_keepsBank {srcItem dstItem : Item} (hsrc : isBankPos src = false)
    (hdst : isBankPos dst = false) : KeepsBank T v (v.exchange T R src dst srcItem dstItem) := by
  unfold exchange
  split
  · next plan plan' hplan hplan' =>
    apply (keepsBank_removeItem hdst).trans
    apply (keepsBank_removeItem hsrc).trans
    apply (keepsBank_carryOut (planSwap_outside hdst hplan)).trans
    apply (keepsBank_carryOut (planSwap_outside hsrc hplan')).trans
    exact keepsBank_autoUnequipOffhand _
  · exact .refl v

/-- **A swap between two positions outside the bank leaves the bank**. -/
theorem swapItem_keepsBank (hsrc : isBankPos src = false) (hdst : isBankPos dst = false) :
    KeepsBank T v (v.swapItem T R src dst) := by
  unfold swapItem
  split
  · exact .refl v
  · next srcItem hat =>
    split
    · exact .refl v
    · split
      · exact .refl v
      · split
        · exact .refl v
        · split
          · split
            · next plan hplan =>
              apply (keepsBank_removeItem hsrc).trans
              exact keepsBank_place (planItem_outside hdst hplan)
            · exact .refl v
          · next dstItem hdstItem =>
            unfold swapWith
            split
            · exact .refl v
            · split
              · next plan hplan =>
                dsimp only
                split
                · apply (keepsBank_removeItem hsrc).trans
                  exact keepsBank_place (planItem_outside hdst hplan)
                · apply (keepsBank_setCount hsrc _).trans
                  exact keepsBank_setCount hdst _
              · exact exchange_keepsBank hsrc hdst

end Player

end Sunstrider.Inventory
