import Sunstrider.Laws.Inventory.Rooms

/-!
# What `_CanStoreItem` answers

The searches come to the rooms `storeRooms`: the position that is asked for, the bag that is, and all
the inventory. What is answered is what these rooms take (`canStoreItemCount_eq`), unless the item is
bound to another player, there are too many already, or the place that is asked for refuses the item.
-/

namespace Sunstrider.Inventory

open Sunstrider.Lib (fill capacity survey survey_append survey_nil nodup_survey mem_of_mem_survey
  mem_survey_places prefix_of_survey)

variable {T : Templates}

namespace Player

variable {v : Player} {item : Item} {p q : Pos} {r : ℕ} {swap : Bool}

/-! ## What is asked for -/

/-- No place, the backpack, or an equipped bag, with or without a slot. -/
def IsStoreTarget (T : Templates) (v : Player) (p : Pos) : Prop :=
  p = (nullBag, nullSlot) ∨
    p.1 = inventorySlotBag0 ∧ (p.2 = nullSlot ∨ isInventorySlot p.2 = true) ∨
    isInventoryBagSlot p.1 = true ∧
      ∃ bag, v.items p.1 = some bag ∧ (p.2 = nullSlot ∨ p.2.val < bag.getBagSize T)

/-- The place that is asked for refuses the item: a position that has no room for it, or a bag that is
not for it. -/
def Refused (T : Templates) (v : Player) (item : Item) (p : Pos) (swap : Bool) : Prop :=
  isSpecific p = true ∧ (∀ r, ¬ HasRoom T v item (cleared T v item p swap) p r) ∨
    isInventoryBagSlot p.1 = true ∧ v.bagTakes T item p.1 = false

theorem nullBag_ne_bag0 : nullBag ≠ inventorySlotBag0 := by decide

theorem not_isInventoryBagSlot_nullBag : isInventoryBagSlot nullBag = false := by decide

theorem nullSlot_not_inventory : isInventorySlot nullSlot = false := by decide

/-- A position that is asked for is one of the inventory. -/
theorem IsStoreTarget.specific (h : IsStoreTarget T v p) (hp : isSpecific p = true) :
    v.HasPlace T p ∧ isStorePos p = true ∧ v.isValidPos T p = true := by
  simp only [isSpecific, Bool.and_eq_true, decide_eq_true_eq] at hp
  rcases h with rfl | ⟨hown, hslot | hslot⟩ | ⟨hbag, b, hat, hslot | hlt⟩
  · exact absurd rfl hp.1
  · exact absurd hslot hp.2
  · refine ⟨.inl ⟨hown, .inl ?_⟩, by simp [isStorePos, hown, hslot], ?_⟩
    · simp only [isInventorySlot, Bool.and_eq_true, decide_eq_true_eq] at hslot
      omega
    · have hnull : ¬ inventorySlotBag0 = nullBag := nullBag_ne_bag0.symm
      simp [isValidPos, hnull, hown, hslot]
  · exact absurd hslot hp.2
  · have hbagSlot := isBagSlot_of_inventory hbag
    refine ⟨.inr ⟨hbagSlot, b, hat, hlt⟩, by simp [isStorePos, hbag], ?_⟩
    unfold isValidPos
    rw [if_neg hp.1, if_neg (bagSlot_ne_bag0 hbagSlot), if_pos hbagSlot,
      getItemByPos_bagSlot v hbagSlot, hat]
    simp [hlt]

/-- A position of the inventory where nothing is in the way. -/
theorem freeSlot_eq {view : Pos → Option Stack} (hplace : v.HasPlace T p) (hkind : isStorePos p = true)
    (hnone : view p = none) :
    (∃ r, HasRoom T v item view p r ∧ ∀ s, v.freeSlot T item p s = .ok (s.take p r)) ∨
      (∀ r, ¬ HasRoom T v item view p r) ∧
        ∃ res : InventoryResult, (res ≠ .ok ∧ res ≠ .inventoryFull) ∧ ∀ s, v.freeSlot T item p s = .error res := by
  have hrefused : (¬ Accepts T v item p) → (∀ s, v.freeSlot T item p s = .error .itemDoesntGoIntoBag) →
      (∀ r, ¬ HasRoom T v item view p r) ∧
        ∃ res : InventoryResult, (res ≠ .ok ∧ res ≠ .inventoryFull) ∧ ∀ s, v.freeSlot T item p s = .error res :=
    fun hno herror => ⟨fun r hr => hno hr.accepts, _, by decide, herror⟩
  by_cases hown : p.1 = inventorySlotBag0
  · by_cases hkey : isKeyringSlot p.2 = true ∧ (T item.entry).isKey = false
    · apply Or.inr (hrefused ?_ fun s => ?_)
      · intro haccepts
        rw [haccepts.key hown hkey.1] at hkey
        exact absurd hkey.2 (by decide)
      · rw [freeSlot, if_pos hown, if_pos (by simp [hkey])]
    · refine .inl ⟨(T item.entry).stackable, ⟨⟨hplace, hkind, fun _ hring => ?_, ?_⟩,
        .inl ⟨hnone, rfl⟩⟩, fun s => ?_⟩
      · by_contra hno
        exact hkey ⟨hring, Bool.eq_false_iff.mpr hno⟩
      · exact fun hin => absurd hown hin
      · have hslot : ¬ ((74 ≤ p.2.val && p.2.val < 86) || 118 ≤ p.2.val) = true := by
          simp only [isStorePos, isInventorySlot, isKeyringSlot, hown, decide_true, Bool.true_and,
            Bool.or_eq_true, Bool.and_eq_true, decide_eq_true_eq] at hkind
          have hbag0 : ¬ isInventoryBagSlot inventorySlotBag0 = true := by decide
          simp only [Bool.or_eq_true, Bool.and_eq_true, decide_eq_true_eq]
          rcases hkind with hkind | hbad
          · omega
          · exact absurd hbad hbag0
        rw [freeSlot, if_pos hown, if_neg ?_, if_neg hslot]
        simpa using hkey
  · by_cases htakes : v.bagTakes T item p.1 = true
    · refine .inl ⟨(T item.entry).stackable, ⟨⟨hplace, hkind, fun h => absurd h hown, fun _ => htakes⟩,
        .inl ⟨hnone, rfl⟩⟩, fun s => ?_⟩
      rw [freeSlot, if_neg hown]
      unfold bagTakes at htakes
      cases hbag : v.getItemByPos T (inventorySlotBag0, p.1) with
      | none =>
        rw [hbag] at htakes
        cases htakes
      | some b =>
        rw [hbag] at htakes
        exact if_pos htakes
    · apply Or.inr (hrefused (fun haccepts => htakes (haccepts.family hown)) fun s => ?_)
      rw [freeSlot, if_neg hown]
      unfold bagTakes at htakes
      cases hbag : v.getItemByPos T (inventorySlotBag0, p.1) with
      | none => rfl
      | some b =>
        rw [hbag] at htakes
        exact if_neg htakes

/-- **The search of the position that is asked for.** -/
theorem specificSlot_eq (hv : v.Orderly T) (item : Item) (swap : Bool) (hp : isSpecific p = true)
    (hplace : v.HasPlace T p) (hkind : isStorePos p = true) :
    (∃ r, HasRoom T v item (cleared T v item p swap) p r ∧
        ∀ s, v.canStoreItemInSpecificSlot T item p swap s = .ok (s.take p r)) ∨
      (∀ r, ¬ HasRoom T v item (cleared T v item p swap) p r) ∧
        ∃ res : InventoryResult, (res ≠ .ok ∧ res ≠ .inventoryFull) ∧
          ∀ s, v.canStoreItemInSpecificSlot T item p swap s = .error res := by
  cases hat : v.otherItem T item.guid p with
  | none =>
    have hnone : cleared T v item p swap p = none := by
      unfold cleared
      split
      · exact Function.update_self ..
      · simp [seen, hat]
    simp only [specificSlot_free (.inl hat)]
    exact freeSlot_eq hplace hkind hnone
  | some dest =>
    cases swap with
    | true =>
      have hnone : cleared T v item p true p = none := by simp [cleared, hp]
      simp only [specificSlot_free (.inr rfl)]
      exact freeSlot_eq hplace hkind hnone
    | false =>
      have hview : cleared T v item p false p = some dest.stack := by simp [cleared, seen, hat]
      have hcode : ∀ s, v.canStoreItemInSpecificSlot T item p false s =
          if dest.entry ≠ item.entry then .error .itemCantStack
          else if (T item.entry).stackable ≤ dest.count then .error .itemCantStack
          else .ok (s.take p ((T item.entry).stackable - dest.count)) := by
        intro s
        unfold canStoreItemInSpecificSlot
        rw [hat]
      have hroom : ∀ r, HasRoom T v item (cleared T v item p false) p r →
          dest.entry = item.entry ∧ dest.count < (T item.entry).stackable := by
        intro r hr
        rcases hr.room with ⟨hnone, -⟩ | ⟨a, ha, hentry, hlt, -⟩
        · rw [hview] at hnone
          cases hnone
        · rw [hview] at ha
          cases ha
          exact ⟨hentry, hlt⟩
      have hcant : (∀ r, ¬ HasRoom T v item (cleared T v item p false) p r) →
          (∀ s, v.canStoreItemInSpecificSlot T item p false s = .error .itemCantStack) →
          (∀ r, ¬ HasRoom T v item (cleared T v item p false) p r) ∧
            ∃ res : InventoryResult, (res ≠ .ok ∧ res ≠ .inventoryFull) ∧
              ∀ s, v.canStoreItemInSpecificSlot T item p false s = .error res :=
        fun hno herror => ⟨hno, _, by decide, herror⟩
      by_cases hentry : dest.entry = item.entry
      · by_cases hfull : (T item.entry).stackable ≤ dest.count
        · apply Or.inr (hcant (fun r hr => absurd (hroom r hr).2 (not_lt.mpr hfull)) fun s => ?_)
          rw [hcode, if_neg (not_not.mpr hentry), if_pos hfull]
        · refine .inl ⟨(T item.entry).stackable - dest.count,
            ⟨hv.accepts (otherItem_eq_some hat) hentry hkind,
              .inr ⟨dest.stack, hview, hentry, not_le.mp hfull, ?_⟩⟩, fun s => ?_⟩
          · show _ + dest.count = _
            omega
          · rw [hcode, if_neg (not_not.mpr hentry), if_neg hfull]
      · apply Or.inr (hcant (fun r hr => hentry (hroom r hr).1) fun s => ?_)
        rw [hcode, if_pos hentry]

/-! ## Rooms -/

/-- The room of the position that is asked for. -/
def specificVisits (T : Templates) (v : Player) (item : Item) (p : Pos) (swap : Bool) :
    List (Pos × ℕ) :=
  if isSpecific p then
    [(p, match cleared T v item p swap p with
      | none => (T item.entry).stackable
      | some a => (T item.entry).stackable - a.count)]
  else []

/-- **The rooms that `_CanStoreItem` comes to**, in its order: those of the position and of the bag that
are asked for, and those in all the inventory. -/
def storeRooms (T : Templates) (v : Player) (item : Item) (p : Pos) (swap : Bool) :
    List (Pos × ℕ) :=
  survey [] (v.specificVisits T item p swap
    ++ (v.askedVisits T item p ++ (v.storeVisits T item p).flatten))

theorem specificVisits_of_hasRoom (hp : isSpecific p = true)
    (h : HasRoom T v item (cleared T v item p swap) p r) :
    v.specificVisits T item p swap = [(p, r)] := by
  unfold specificVisits
  rw [if_pos hp]
  rcases h.room with ⟨hnone, rfl⟩ | ⟨a, ha, -, -, hr⟩
  · rw [hnone]
  · rw [ha, ← hr]
    simp

theorem specificVisits_of_not (hp : ¬ isSpecific p = true) : v.specificVisits T item p swap = [] :=
  if_neg hp

theorem cleared_of_ne (hq : q ≠ p) : cleared T v item p swap q = v.seen T item q := by
  unfold cleared
  split
  · exact Function.update_of_ne hq ..
  · rfl

theorem IsStoreTarget.takes (h : IsStoreTarget T v p) (hno : ¬ Refused T v item p swap) :
    p.1 = nullBag ∨ p.1 = inventorySlotBag0 ∨
      isInventoryBagSlot p.1 = true ∧ v.bagTakes T item p.1 = true := by
  rcases h with rfl | ⟨hown, -⟩ | ⟨hbag, -⟩
  · exact .inl rfl
  · exact .inr (.inl hown)
  · refine .inr (.inr ⟨hbag, ?_⟩)
    by_contra htakes
    exact hno (.inr ⟨hbag, Bool.eq_false_iff.mpr htakes⟩)

/-- A position that is asked for and has room lies in a bag that takes the item. -/
theorem hasRoom_of_not_refused (hno : ¬ Refused T v item p swap) (hp : isSpecific p = true) :
    ∃ r, HasRoom T v item (cleared T v item p swap) p r := by
  by_contra hnone
  exact hno (.inl ⟨hp, fun r hr => hnone ⟨r, hr⟩⟩)

/-- **The rooms are what their places have room for.** -/
theorem storeRooms_hasRoom (hv : v.Orderly T) (htarget : IsStoreTarget T v p)
    (hno : ¬ Refused T v item p swap) {c : Pos × ℕ} (hc : c ∈ v.storeRooms T item p swap) :
    HasRoom T v item (cleared T v item p swap) c.1 c.2 := by
  have hrest : cleared T v item p swap c.1 = v.seen T item c.1 →
      c ∈ v.askedVisits T item p ++ (v.storeVisits T item p).flatten →
      HasRoom T v item (cleared T v item p swap) c.1 c.2 := by
    intro hview hc
    rcases List.mem_append.mp hc with hc | hc
    · exact askedVisits_hasRoom hv hview (htarget.takes hno) hc
    · exact storeVisits_hasRoom hv hview hc
  unfold storeRooms at hc
  by_cases hp : isSpecific p = true
  · obtain ⟨r, hr⟩ := hasRoom_of_not_refused hno hp
    rw [specificVisits_of_hasRoom hp hr, survey_append] at hc
    rcases mem_of_mem_survey hc with hc | ⟨hc, hnew⟩
    · rcases mem_of_mem_survey hc with hc | ⟨hc, -⟩
      · cases hc
      · rw [List.mem_singleton.mp hc]
        exact hr
    · apply hrest (cleared_of_ne ?_) hc
      intro heq
      apply hnew
      rw [heq]
      exact mem_survey_places (List.mem_singleton_self (p, r))
  · rw [specificVisits_of_not hp, List.nil_append] at hc
    rcases mem_of_mem_survey hc with hc | ⟨hc, -⟩
    · cases hc
    · apply hrest ?_ hc
      rw [cleared_of_not_specific (Bool.eq_false_iff.mpr hp)]

/-- Where a slot of the player himself is asked for, the slots with its number in the bags are passed
over. -/
theorem storeRooms_skips (hown : p.1 = inventorySlotBag0) {c : Pos × ℕ}
    (hc : c ∈ v.storeRooms T item p swap) (hin : c.1.1 ≠ inventorySlotBag0) : c.1.2 ≠ p.2 := by
  have hslots : ∀ first last merge, last ≤ 256 → c ∈ v.slotVisits T item first last merge p →
      c.1.2 ≠ p.2 := by
    intro first last merge hlast hmem
    exact absurd ((mem_slotVisits hlast).mp hmem).1.1.1 hin
  have hfound := (mem_of_mem_survey hc).resolve_left List.not_mem_nil
  rcases List.mem_append.mp hfound.1 with hc | hc
  · unfold specificVisits at hc
    split at hc
    · rw [List.mem_singleton.mp hc] at hin
      exact absurd hown hin
    · cases hc
  · rcases List.mem_append.mp hc with hc | hc
    · rcases askedVisits_cases hc with ⟨-, ⟨merge, hc⟩ | ⟨merge, -, hc⟩⟩ | ⟨⟨-, hnot⟩, -⟩
      · exact hslots _ _ _ (by decide) hc
      · exact hslots _ _ _ (by decide) hc
      · exact absurd hown hnot
    · obtain ⟨found, hmem, hc⟩ := List.mem_flatten.mp hc
      rcases storeVisits_cases hmem with ⟨merge, rfl⟩ | ⟨merge, -, rfl⟩ |
        ⟨merge, nonSpecialized, bag, hbag, rfl⟩
      · exact hslots _ _ _ (by decide) hc
      · exact hslots _ _ _ (by decide) hc
      · unfold kindVisits at hc
        split at hc
        · exact ((mem_bagVisits (isBagSlot_of_inventory (inventoryBags bag hbag))).mp hc).1.2
        · cases hc

theorem getBagSize_lt (bag : Item) : bag.getBagSize T < 255 := by
  unfold Item.getBagSize
  split
  · exact (Nat.lt_succ_iff.mp (T bag.entry).containerSlots.isLt).trans_lt (by decide)
  · decide

/-- Where all the inventory is searched, every room is come to, but for those that are passed over. -/
theorem mem_storeRooms (hv : v.Orderly T) (htarget : IsStoreTarget T v p)
    (hno : ¬ Refused T v item p swap)
    (hall : p = (nullBag, nullSlot) ∨ p.1 = inventorySlotBag0 ∧ isInventorySlot p.2 = true)
    (h : HasRoom T v item (cleared T v item p swap) q r)
    (hskip : p.1 = inventorySlotBag0 → q.1 ≠ inventorySlotBag0 → q.2 ≠ p.2) :
    (q, r) ∈ v.storeRooms T item p swap := by
  have hplaces : q ∈ (v.storeRooms T item p swap).map Prod.fst := by
    by_cases hq : q = p ∧ isSpecific p = true
    · rw [hq.1] at h ⊢
      apply mem_survey_places (c := (p, r))
      rw [specificVisits_of_hasRoom hq.2 h]
      exact List.mem_cons_self
    · have hne : q ≠ p := by
        rintro rfl
        apply hq
        refine ⟨rfl, ?_⟩
        rcases hall with rfl | ⟨hown, hslot⟩
        · have hkind := h.accepts.kind
          exact absurd hkind (by decide)
        · have hnull : q.2 ≠ nullSlot := by
            intro hnull
            rw [hnull, nullSlot_not_inventory] at hslot
            cases hslot
          simp [isSpecific, hown, hnull, nullBag_ne_bag0.symm]
      apply mem_survey_places (c := (q, r))
      refine List.mem_append_right _ (List.mem_append_right _ ?_)
      apply mem_storeVisits hv h (cleared_of_ne hne) hne
      intro hin
      rcases hall with rfl | ⟨hown, -⟩
      · have hbag : isInventoryBagSlot q.1 = true := by
          simpa [isStorePos, hin] using h.accepts.kind
        refine ⟨?_, ?_⟩
        · intro heq
          rw [heq, not_isInventoryBagSlot_nullBag] at hbag
          cases hbag
        · intro heq
          rcases h.accepts.place with ⟨hown, -⟩ | ⟨-, b, -, hlt⟩
          · exact hin hown
          · rw [heq] at hlt
            have hsize := getBagSize_lt (T := T) b
            have hval : (nullBag, nullSlot).2.val = 255 := rfl
            omega
      · exact ⟨fun heq => hin (heq.trans hown), hskip hown hin⟩
  obtain ⟨c, hc, rfl⟩ := List.mem_map.mp hplaces
  rw [h.unique (storeRooms_hasRoom hv htarget hno hc)]
  exact hc

theorem nodup_storeRooms (v : Player) (item : Item) (p : Pos) (swap : Bool) :
    ((v.storeRooms T item p swap).map Prod.fst).Nodup := nodup_survey List.nodup_nil

/-! ## The answer -/

variable {noSimilar : UInt32} {n : ℕ}

theorem settleSpecific_of_not (hp : ¬ isSpecific p = true) (s : Search) :
    v.settleSpecific T item p swap noSimilar s = .ok s := if_neg hp

theorem settleSpecific_of_isValidPos (hp : isSpecific p = true) (hvalid : v.isValidPos T p = true)
    (s : Search) : v.settleSpecific T item p swap noSimilar s =
      match v.canStoreItemInSpecificSlot T item p swap s with
      | .ok s => settle noSimilar s
      | .error res => .error (refuse noSimilar res s) :=
  (if_pos hp).trans (if_neg (by rw [hvalid]; exact Bool.false_ne_true))

/-- **The searches come to the rooms.** -/
theorem settled_search (noSimilar : UInt32) (hv : v.Orderly T) (htarget : IsStoreTarget T v p)
    (hno : ¬ Refused T v item p swap) (hn : n ≠ 0) :
    Settled (v.storeRooms T item p swap) n noSimilar (do
      let s ← v.settleSpecific T item p swap noSimilar ⟨[], n⟩
      let s ← v.settleInBag T item p noSimilar s
      (v.storeSearches T item p).foldlM (fun s search => settle noSimilar (search s)) s) := by
  have hspecific : Settled (survey [] (v.specificVisits T item p swap)) n noSimilar
      (v.settleSpecific T item p swap noSimilar ⟨[], n⟩) := by
    by_cases hp : isSpecific p = true
    · obtain ⟨hplace, hkind, hvalid⟩ := htarget.specific hp
      obtain ⟨r, hr⟩ := hasRoom_of_not_refused hno hp
      rw [specificVisits_of_hasRoom hp hr, settleSpecific_of_isValidPos hp hvalid]
      rcases specificSlot_eq hv item swap hp hplace hkind with ⟨r', hr', hok⟩ | ⟨hnone, -⟩
      · rw [hok, hr.unique hr']
        exact settled_settle ((filled_nil n).take hn p r')
      · exact absurd hr (hnone r)
    · rw [specificVisits_of_not hp, settleSpecific_of_not hp]
      exact ⟨filled_nil n, hn⟩
  unfold storeRooms
  rw [survey_append]
  refine hspecific.bind fun s h hopen => ?_
  rw [survey_append]
  refine (settled_settleInBag h hopen ?_).bind fun s h hopen => settled_storeSearches h hopen
  exact (htarget.takes hno).imp_right fun h => h.imp_right fun h => h.2

theorem search_refused (noSimilar : UInt32) (n : ℕ) (hv : v.Orderly T)
    (htarget : IsStoreTarget T v p) (hrefused : Refused T v item p swap) :
    ∃ res : InventoryResult, (res ≠ .ok ∧ res ≠ .inventoryFull) ∧
      (do
        let s ← v.settleSpecific T item p swap noSimilar ⟨[], n⟩
        let s ← v.settleInBag T item p noSimilar s
        (v.storeSearches T item p).foldlM (fun s search => settle noSimilar (search s)) s :
          Except StoreAnswer Search) = .error (refuse noSimilar res ⟨[], n⟩) := by
  by_cases hp : isSpecific p = true
  · obtain ⟨hplace, hkind, hvalid⟩ := htarget.specific hp
    rcases specificSlot_eq hv item swap hp hplace hkind with ⟨r, hr, -⟩ | ⟨-, res, hres, herror⟩
    · rcases hrefused with ⟨-, hnone⟩ | ⟨hbag, htakes⟩
      · exact absurd hr (hnone r)
      · rw [hr.accepts.family (bagSlot_ne_bag0 (isBagSlot_of_inventory hbag))] at htakes
        cases htakes
    · refine ⟨res, hres, ?_⟩
      have hspecific : v.settleSpecific T item p swap noSimilar ⟨[], n⟩ =
          .error (refuse noSimilar res ⟨[], n⟩) := by
        rw [settleSpecific_of_isValidPos hp hvalid, herror]
      rw [hspecific]
      rfl
  · obtain ⟨hbag, htakes⟩ := hrefused.resolve_left fun h => hp h.1
    have hnull : p.1 ≠ nullBag := by
      intro hnull
      rw [hnull, not_isInventoryBagSlot_nullBag] at hbag
      cases hbag
    refine ⟨.itemDoesntGoIntoBag, by decide, ?_⟩
    rw [settleSpecific_of_not hp]
    show v.settleInBag T item p noSimilar ⟨[], n⟩ >>= _ = _
    rw [settleInBag_refused hnull (bagSlot_ne_bag0 (isBagSlot_of_inventory hbag)) htakes]
    rfl

end Player

end Sunstrider.Inventory
