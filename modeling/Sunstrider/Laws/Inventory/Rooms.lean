import Sunstrider.Laws.Inventory.Filled
import Sunstrider.Laws.Inventory.Frames

/-!
# Well-formed storages and the rooms they have

Each item is in one place, no stack is higher than its template allows, a bag with something in it lies
in a slot for bags, and a slot of the key ring holds a key (`WellFormed`).
-/

namespace Sunstrider.Inventory

open Sunstrider.Lib (Placed)

variable {T : Templates}

/-- What may lie at a position. -/
structure Allowed (T : Templates) (p : Pos) (item : Item) : Prop where
  bag : isBagPos p = false → item.isNotEmptyBag T = false
  key : p.1 = inventorySlotBag0 → isKeyringSlot p.2 = true → (T item.entry).isKey = true

theorem Item.isNotEmptyBag_of_bagslot {item : Item} (h : item.bagslot = fun _ => none) :
    item.isNotEmptyBag T = false := by
  unfold Item.isNotEmptyBag Item.isEmpty
  rw [h]
  simp

namespace Player

variable {v : Player} {p q : Pos} {item : Item}

/-- Everything lies where it may. -/
def AllAllowed (T : Templates) (v : Player) : Prop :=
  ∀ p item, v.getItemByPos T p = some item → Allowed T p item

/-- Each item is in one place, no stack is too high, and everything lies where it may. -/
structure WellFormed (T : Templates) (v : Player) : Prop where
  placed : Placed (fun a : Stack => a.count ≤ (T a.entry).stackable) Stack.guid v.nextGuid
    (v.stackAt T)
  allowed : AllAllowed T v

/-- How many items of an entry there are in all positions. -/
def totalOf (T : Templates) (v : Player) (entry : ℕ) : ℕ :=
  Lib.total Stack.entry Stack.count entry (v.stackAt T)

theorem stackAt_eq_some {item : Item} (h : v.getItemByPos T p = some item) :
    v.stackAt T p = some item.stack := by
  unfold stackAt
  rw [h, Option.map_some]

theorem WellFormed.count_le (h : v.WellFormed T) (hat : v.getItemByPos T p = some item) :
    item.count ≤ (T item.entry).stackable := h.placed.each p item.stack (stackAt_eq_some hat)

/-! ## One item -/

section Lone

variable {a : Item} {slot : Fin 256} (hitems : v.items = fun s => if s = slot then some a else none)
  (hempty : a.bagslot = fun _ => none)

include hitems hempty

theorem lone_wellFormed (hcount : a.count ≤ (T a.entry).stackable) (hguid : a.guid < v.nextGuid)
    (hslot : isKeyringSlot slot = false) : v.WellFormed T := by
  have hstack : ∀ p s, v.stackAt T p = some s → p = (inventorySlotBag0, slot) ∧ s = a.stack := by
    intro p s hs
    obtain ⟨b, hb, rfl⟩ := Option.map_eq_some_iff.mp hs
    obtain ⟨hp, rfl⟩ := lone_item hitems hempty hb
    exact ⟨hp, rfl⟩
  refine ⟨⟨?_, ?_, ?_⟩, ?_⟩
  · intro p s hs
    rw [(hstack p s hs).2]
    exact hcount
  · intro p q s t hs ht _
    rw [(hstack p s hs).1, (hstack q t ht).1]
  · intro p s hs
    rw [(hstack p s hs).2]
    exact hguid
  · intro p b hb
    obtain ⟨rfl, rfl⟩ := lone_item hitems hempty hb
    refine ⟨fun _ => Item.isNotEmptyBag_of_bagslot hempty, fun _ hring => ?_⟩
    rw [hslot] at hring
    cases hring

end Lone

end Player

end Sunstrider.Inventory

/-!
## The rooms that a storage has

What room a position of the inventory has for more of an item, by what lies there and by what the
position accepts (`HasRoom`), in a storage in which each item lies where it is accepted (`Orderly`). The
rooms that `_CanStoreItem` comes to are such rooms (`storeRooms_hasRoom`), and where all the inventory is
searched, it comes to all of them, but for those in one slot of each bag (`mem_storeRooms`).
-/

namespace Sunstrider.Inventory

open Sunstrider.Lib (survey survey_append)

variable {T : Templates}

namespace Player

variable {v : Player} {item : Item} {p q : Pos} {r : ℕ} {swap merge : Bool} {view : Pos → Option Stack}

/-! ## Room -/

/-- A storage in which each item lies where it is accepted. -/
structure Orderly (T : Templates) (v : Player) : Prop where
  wellFormed : v.WellFormed T
  positive : ∀ p item, v.getItemByPos T p = some item → 0 < item.count
  families : ∀ p item, v.getItemByPos T p = some item → p.1 ≠ inventorySlotBag0 →
    v.bagTakes T item p.1 = true

/-- A position of the inventory that accepts an item: a slot of the key ring takes keys, and a bag what
it is for. -/
structure Accepts (T : Templates) (v : Player) (item : Item) (q : Pos) : Prop where
  place : v.HasPlace T q
  kind : isStorePos q = true
  key : q.1 = inventorySlotBag0 → isKeyringSlot q.2 = true → (T item.entry).isKey = true
  family : q.1 ≠ inventorySlotBag0 → v.bagTakes T item q.1 = true

/-- How many more of an item a position of the inventory takes: a stack, where nothing is in the way, or
what the stack of the entry that is there lacks. -/
structure HasRoom (T : Templates) (v : Player) (item : Item) (view : Pos → Option Stack) (q : Pos)
    (r : ℕ) : Prop where
  accepts : Accepts T v item q
  room : view q = none ∧ r = (T item.entry).stackable ∨
    ∃ a, view q = some a ∧ a.entry = item.entry ∧ a.count < (T item.entry).stackable ∧
      r + a.count = (T item.entry).stackable

theorem HasRoom.unique {r' : ℕ} (h : HasRoom T v item view q r) (h' : HasRoom T v item view q r') :
    r = r' := by
  rcases h.room with ⟨hnone, hr⟩ | ⟨a, ha, -, -, hr⟩
  · rcases h'.room with ⟨-, hr'⟩ | ⟨b, hb, -⟩
    · exact hr.trans hr'.symm
    · rw [hnone] at hb
      cases hb
  · rcases h'.room with ⟨hnone, -⟩ | ⟨b, hb, -, -, hr'⟩
    · rw [ha] at hnone
      cases hnone
    · rw [ha] at hb
      cases hb
      omega

theorem Orderly.accepts (hv : v.Orderly T) {dest : Item} (hat : v.getItemByPos T q = some dest)
    (hentry : dest.entry = item.entry) (hkind : isStorePos q = true) : Accepts T v item q where
  place := hasPlace_of_getItemByPos hat
  kind := hkind
  key hown hring := hentry ▸ (hv.wellFormed.allowed q dest hat).key hown hring
  family hin := by
    have hfamily := hv.families q dest hat hin
    unfold bagTakes at hfamily ⊢
    rw [← hentry]
    exact hfamily

theorem otherItem_eq_some {guid : ℕ} {dest : Item} (h : v.otherItem T guid q = some dest) :
    v.getItemByPos T q = some dest := (Option.filter_eq_some_iff.mp h).1

/-! ## Rooms that are visited -/

theorem mem_visits {ps : List Pos} {c : Pos × ℕ} :
    c ∈ v.visits T item merge ps ↔ c.1 ∈ ps ∧ v.space T item merge c.1 = some c.2 := by
  unfold visits
  rw [List.mem_filterMap]
  constructor
  · rintro ⟨q, hq, hc⟩
    obtain ⟨r, hr, rfl⟩ := Option.map_eq_some_iff.mp hc
    exact ⟨hq, hr⟩
  · rintro ⟨hq, hr⟩
    exact ⟨c.1, hq, by rw [hr]; rfl⟩

theorem hasRoom_of_space (hv : v.Orderly T) (hview : view q = v.seen T item q)
    (haccepts : v.seen T item q = none → Accepts T v item q) (hkind : isStorePos q = true)
    (h : v.space T item merge q = some r) : HasRoom T v item view q r := by
  unfold space at h
  unfold seen at hview haccepts
  cases hat : v.otherItem T item.guid q with
  | none =>
    rw [hat] at h hview haccepts
    cases merge with
    | true => cases h
    | false =>
      cases h
      exact ⟨haccepts rfl, .inl ⟨hview, rfl⟩⟩
  | some dest =>
    rw [hat] at h hview
    dsimp only at h
    split at h
    · next hcond =>
      cases h
      simp only [Bool.and_eq_true, decide_eq_true_eq] at hcond
      refine ⟨hv.accepts (otherItem_eq_some hat) hcond.2.1 hkind, .inr ⟨dest.stack, hview,
        hcond.2.1, hcond.2.2, ?_⟩⟩
      show (T item.entry).stackable - dest.count + dest.count = _
      omega
    · cases h

theorem HasRoom.space (h : HasRoom T v item view q r) (hv : v.Orderly T)
    (hview : view q = v.seen T item q) :
    v.space T item false q = some r ∨
      1 < (T item.entry).stackable ∧ v.space T item true q = some r := by
  unfold seen at hview
  unfold Player.space
  cases hat : v.otherItem T item.guid q with
  | none =>
    rw [hat] at hview
    rcases h.room with ⟨-, hr⟩ | ⟨a, ha, -⟩
    · exact .inl (by rw [hr]; rfl)
    · rw [hview] at ha
      cases ha
  | some dest =>
    rw [hat] at hview
    rcases h.room with ⟨hnone, -⟩ | ⟨a, ha, hentry, hlt, hr⟩
    · rw [hview] at hnone
      cases hnone
    · rw [hview] at ha
      cases ha
      have hpos := hv.positive q dest (otherItem_eq_some hat)
      have hentry' : dest.entry = item.entry := hentry
      have hlt' : dest.count < (T item.entry).stackable := hlt
      have hr' : r + dest.count = (T item.entry).stackable := hr
      refine .inr ⟨by omega, ?_⟩
      dsimp only
      rw [if_pos (by simp [hentry', hlt'])]
      exact congrArg some (by omega)

variable {skip : Pos}

theorem mem_slotVisits {first last : ℕ} (hlast : last ≤ 256) {c : Pos × ℕ} :
    c ∈ v.slotVisits T item first last merge skip ↔
      ((c.1.1 = inventorySlotBag0 ∧ first ≤ c.1.2.val ∧ c.1.2.val < last) ∧ c.1 ≠ skip) ∧
        v.space T item merge c.1 = some c.2 := by
  unfold slotVisits
  rw [mem_visits, List.mem_filter, mem_ownPositions hlast, decide_eq_true_eq]

variable {bag : Fin 256}

theorem mem_bagVisits {skipSlot : Fin 256} (hbag : isBagSlot bag = true) {c : Pos × ℕ} :
    c ∈ v.bagVisits T item merge skipSlot bag ↔
      ((c.1.1 = bag ∧ v.HasPlace T c.1) ∧ c.1.2 ≠ skipSlot) ∧
        v.space T item merge c.1 = some c.2 := by
  have hone : ∀ a ∈ [bag], isBagSlot a = true := by
    intro a ha
    rw [List.mem_singleton.mp ha]
    exact hbag
  unfold bagVisits
  rw [mem_visits, List.mem_filter, mem_bagPositions hone, List.mem_singleton, decide_eq_true_eq]
  have hplace : c.1.1 = bag → (v.HasPlace T c.1 ↔
      ∃ b, v.items c.1.1 = some b ∧ c.1.2.val < b.getBagSize T) := by
    intro hin
    constructor
    · rintro (⟨hown, -⟩ | ⟨-, hin⟩)
      · exact absurd (hin ▸ hown) (bagSlot_ne_bag0 hbag)
      · exact hin
    · intro h
      exact .inr ⟨hin ▸ hbag, h⟩
  rw [and_congr_right hplace]

/-- A list of rooms in all the inventory is that of some slots, or of a bag. -/
theorem storeVisits_cases {found : List (Pos × ℕ)} (h : found ∈ v.storeVisits T item p) :
    (∃ merge, found = v.slotVisits T item 23 39 merge p) ∨
      (∃ merge, (merge = true ∨ (T item.entry).isKey = true) ∧
        found = v.slotVisits T item 86 118 merge p) ∨
      ∃ merge nonSpecialized, ∃ bag ∈ slotsFrom 19 23,
        found = v.kindVisits T item merge nonSpecialized p bag := by
  have hbags : ∀ merge nonSpecialized,
      found ∈ (slotsFrom 19 23).map (fun bag => v.kindVisits T item merge nonSpecialized p bag) →
      ∃ merge nonSpecialized, ∃ bag ∈ slotsFrom 19 23,
        found = v.kindVisits T item merge nonSpecialized p bag := by
    intro merge nonSpecialized hmem
    obtain ⟨bag, hbag, rfl⟩ := List.mem_map.mp hmem
    exact ⟨merge, nonSpecialized, bag, hbag, rfl⟩
  simp only [storeVisits, List.mem_append, List.mem_ite_nil_right, List.mem_cons, List.not_mem_nil,
    or_false] at h
  rcases h with ((⟨-, ((rfl | rfl) | ⟨-, h⟩) | h⟩ | ⟨-, ⟨hkey, rfl⟩ | h⟩) | rfl) | h
  · exact .inr (.inl ⟨true, .inl rfl, rfl⟩)
  · exact .inl ⟨true, rfl⟩
  · exact .inr (.inr (hbags _ _ h))
  · exact .inr (.inr (hbags _ _ h))
  · exact .inr (.inl ⟨false, .inr hkey, rfl⟩)
  · exact .inr (.inr (hbags _ _ h))
  · exact .inl ⟨false, rfl⟩
  · exact .inr (.inr (hbags _ _ h))

theorem askedVisits_cases {c : Pos × ℕ} (h : c ∈ v.askedVisits T item p) :
    p.1 = inventorySlotBag0 ∧
        ((∃ merge, c ∈ v.slotVisits T item 23 39 merge p) ∨
          ∃ merge, (merge = true ∨ (T item.entry).isKey = true) ∧
            c ∈ v.slotVisits T item 86 118 merge p) ∨
      (p.1 ≠ nullBag ∧ p.1 ≠ inventorySlotBag0) ∧
        ∃ merge, c ∈ v.bagVisits T item merge p.2 p.1 := by
  unfold askedVisits at h
  split at h
  · cases h
  · next hnull =>
    split at h
    next hown =>
      refine .inl ⟨hown, ?_⟩
      simp only [List.mem_append, List.mem_ite_nil_right] at h
      rcases h with ⟨-, h | h⟩ | ⟨hkey, h⟩ | h
      · exact .inr ⟨true, .inl rfl, h⟩
      · exact .inl ⟨true, h⟩
      · exact .inr ⟨false, .inr hkey, h⟩
      · exact .inl ⟨false, h⟩
    next hown =>
      refine .inr ⟨⟨hnull, hown⟩, ?_⟩
      simp only [List.mem_append, List.mem_ite_nil_right] at h
      rcases h with ⟨-, h⟩ | h
      · exact ⟨true, h⟩
      · exact ⟨false, h⟩

section Sound

variable (hv : v.Orderly T) {c : Pos × ℕ} (hview : view c.1 = v.seen T item c.1)

include hv hview

theorem keyring_hasRoom (hkey : merge = true ∨ (T item.entry).isKey = true)
    (hc : c ∈ v.slotVisits T item 86 118 merge skip) : HasRoom T v item view c.1 c.2 := by
  obtain ⟨⟨⟨hown, hslot⟩, -⟩, hspace⟩ := (mem_slotVisits (by decide)).mp hc
  have hring : isKeyringSlot c.1.2 = true := by simpa [isKeyringSlot] using hslot
  apply hasRoom_of_space hv hview ?_ (by simp [isStorePos, hown, hring]) hspace
  intro hnone
  refine ⟨.inl ⟨hown, .inr hring⟩, by simp [isStorePos, hown, hring], fun _ _ => ?_,
    fun hin => absurd hown hin⟩
  apply hkey.resolve_left
  rintro rfl
  exact space_merge hspace hnone

theorem backpack_hasRoom (hc : c ∈ v.slotVisits T item 23 39 merge skip) :
    HasRoom T v item view c.1 c.2 := by
  obtain ⟨⟨⟨hown, hslot⟩, -⟩, hspace⟩ := (mem_slotVisits (by decide)).mp hc
  have hkind : isStorePos c.1 = true := by simp [isStorePos, hown, isInventorySlot, hslot]
  apply hasRoom_of_space hv hview ?_ hkind hspace
  intro _
  refine ⟨.inl ⟨hown, .inl (by omega)⟩, hkind, fun _ hring => ?_, fun hin => absurd hown hin⟩
  simp only [isKeyringSlot, Bool.and_eq_true, decide_eq_true_eq] at hring
  omega

theorem bag_hasRoom {skipSlot : Fin 256} (hbag : isInventoryBagSlot bag = true)
    (htakes : v.bagTakes T item bag = true) (hc : c ∈ v.bagVisits T item merge skipSlot bag) :
    HasRoom T v item view c.1 c.2 := by
  obtain ⟨⟨⟨hin, hplace⟩, -⟩, hspace⟩ := (mem_bagVisits (isBagSlot_of_inventory hbag)).mp hc
  have hkind : isStorePos c.1 = true := by simp [isStorePos, hin, hbag]
  apply hasRoom_of_space hv hview ?_ hkind hspace
  intro _
  refine ⟨hplace, hkind, fun hown => ?_, fun _ => hin ▸ htakes⟩
  exact absurd (hin ▸ hown) (bagSlot_ne_bag0 (isBagSlot_of_inventory hbag))

theorem askedVisits_hasRoom (hp : p.1 = nullBag ∨ p.1 = inventorySlotBag0 ∨
      isInventoryBagSlot p.1 = true ∧ v.bagTakes T item p.1 = true)
    (hc : c ∈ v.askedVisits T item p) : HasRoom T v item view c.1 c.2 := by
  rcases askedVisits_cases hc with ⟨-, ⟨merge, hc⟩ | ⟨merge, hkey, hc⟩⟩ | ⟨⟨hnull, hown⟩, merge, hc⟩
  · exact backpack_hasRoom hv hview hc
  · exact keyring_hasRoom hv hview hkey hc
  · obtain ⟨hbag, htakes⟩ := (hp.resolve_left hnull).resolve_left hown
    exact bag_hasRoom hv hview hbag htakes hc

theorem storeVisits_hasRoom (hc : c ∈ (v.storeVisits T item p).flatten) :
    HasRoom T v item view c.1 c.2 := by
  obtain ⟨found, hmem, hfound⟩ := List.mem_flatten.mp hc
  rcases storeVisits_cases hmem with ⟨merge, rfl⟩ | ⟨merge, hkey, rfl⟩ |
    ⟨merge, nonSpecialized, bag, hbag, rfl⟩
  · exact backpack_hasRoom hv hview hfound
  · exact keyring_hasRoom hv hview hkey hfound
  · unfold kindVisits at hfound
    split at hfound
    · next hcond => exact bag_hasRoom hv hview (inventoryBags bag hbag) hcond.2.1 hfound
    · cases hfound

end Sound

/-- A bag that is not a plain one takes items of its family. -/
theorem bagFamily_ne_zero {proto bagProto : ItemTemplate} (h : itemCanGoIntoBag proto bagProto = true)
    (hplain : bagProto.isPlainContainer = false) : proto.bagFamily ≠ 0 := by
  intro hzero
  have hfamily : ∀ mask, decide (proto.bagFamily &&& mask ≠ 0) = false := by
    intro mask
    rw [hzero, Nat.zero_and]
    rfl
  simp only [ItemTemplate.isPlainContainer, Bool.and_eq_false_iff, decide_eq_false_iff_not] at hplain
  unfold itemCanGoIntoBag at h
  simp only [hfamily] at h
  split at h
  · next hclass =>
    split at h
    next hsub => exact hplain.elim (fun hne => hne hclass) fun hne => hne hsub
    all_goals cases h
  · split at h
    · split at h
      all_goals cases h
    · cases h

theorem kindVisits_mem {nonSpecialized : Bool} (hbag : bag ∈ slotsFrom 19 23)
    (hmerge : merge = true → 1 < (T item.entry).stackable)
    (hspecial : nonSpecialized = false → (T item.entry).bagFamily ≠ 0) :
    v.kindVisits T item merge nonSpecialized p bag ∈ v.storeVisits T item p := by
  have hmem : v.kindVisits T item merge nonSpecialized p bag ∈
      (slotsFrom 19 23).map fun bag => v.kindVisits T item merge nonSpecialized p bag :=
    List.mem_map_of_mem hbag
  unfold storeVisits
  simp only [List.mem_append]
  cases merge with
  | true =>
    rw [if_pos (hmerge rfl)]
    simp only [List.mem_append]
    cases nonSpecialized with
    | true => exact .inl (.inl (.inl (.inr hmem)))
    | false =>
      rw [if_pos (hspecial rfl)]
      exact .inl (.inl (.inl (.inl (.inr hmem))))
  | false =>
    cases nonSpecialized with
    | true => exact .inr hmem
    | false =>
      refine .inl (.inl (.inr ?_))
      rw [if_pos (hspecial rfl)]
      exact List.mem_append_right _ hmem

/-- **All the inventory is searched**, but for the bag that is asked for and, in each bag, the slot of
the position that is. -/
theorem mem_storeVisits (hv : v.Orderly T) (h : HasRoom T v item view q r)
    (hview : view q = v.seen T item q) (hq : q ≠ p)
    (hbag : q.1 ≠ inventorySlotBag0 → q.1 ≠ p.1 ∧ q.2 ≠ p.2) :
    (q, r) ∈ (v.storeVisits T item p).flatten := by
  have hspace := h.space hv hview
  have hin : ∀ found ∈ v.storeVisits T item p, (q, r) ∈ found →
      (q, r) ∈ (v.storeVisits T item p).flatten :=
    fun found hfound hmem => List.mem_flatten.mpr ⟨found, hfound, hmem⟩
  by_cases hown : q.1 = inventorySlotBag0
  · have hslots : ∀ first last merge, last ≤ 256 → first ≤ q.2.val → q.2.val < last →
        v.space T item merge q = some r → (q, r) ∈ v.slotVisits T item first last merge p :=
      fun first last merge hlast hfirst hlt hspace =>
        (mem_slotVisits hlast).mpr ⟨⟨⟨hown, hfirst, hlt⟩, hq⟩, hspace⟩
    have hkind := h.accepts.kind
    simp only [isStorePos, hown, decide_true, Bool.true_and, Bool.or_eq_true] at hkind
    rcases hkind with (hslot | hring) | hbad
    · simp only [isInventorySlot, Bool.and_eq_true, decide_eq_true_eq] at hslot
      rcases hspace with hfree | ⟨hstack, hmerge⟩
      · apply hin _ ?_ (hslots 23 39 false (by decide) hslot.1 hslot.2 hfree)
        simp [storeVisits]
      · apply hin _ ?_ (hslots 23 39 true (by decide) hslot.1 hslot.2 hmerge)
        simp [storeVisits, hstack]
    · have hkey := h.accepts.key hown hring
      simp only [isKeyringSlot, Bool.and_eq_true, decide_eq_true_eq] at hring
      rcases hspace with hfree | ⟨hstack, hmerge⟩
      · have hfamily : (T item.entry).bagFamily ≠ 0 := by
          intro hzero
          rw [ItemTemplate.isKey, hzero, Nat.zero_and] at hkey
          cases hkey
        apply hin _ ?_ (hslots 86 118 false (by decide) hring.1 hring.2 hfree)
        simp [storeVisits, hfamily, hkey]
      · apply hin _ ?_ (hslots 86 118 true (by decide) hring.1 hring.2 hmerge)
        simp [storeVisits, hstack]
    · exact absurd rfl (bagSlot_ne_bag0 (isBagSlot_of_inventory hbad))
  · obtain ⟨hother, hslot⟩ := hbag hown
    have hkind : isInventoryBagSlot q.1 = true := by simpa [isStorePos, hown] using h.accepts.kind
    have htakes := h.accepts.family hown
    have hmem : q.1 ∈ slotsFrom 19 23 := by
      rw [mem_slotsFrom (by decide)]
      simpa [isInventoryBagSlot] using hkind
    have hvisits : ∀ merge, v.space T item merge q = some r →
        (q, r) ∈ v.kindVisits T item merge (v.isPlainBag T q.1) p q.1 := by
      intro merge hspace
      unfold kindVisits
      rw [if_pos ⟨hother, htakes, rfl⟩]
      exact (mem_bagVisits (isBagSlot_of_inventory hkind)).mpr
        ⟨⟨⟨rfl, h.accepts.place⟩, hslot⟩, hspace⟩
    have hfamily : v.isPlainBag T q.1 = false → (T item.entry).bagFamily ≠ 0 := by
      intro hplain
      unfold bagTakes at htakes
      unfold isPlainBag at hplain
      cases hbag : v.getItemByPos T (inventorySlotBag0, q.1) with
      | none =>
        rw [hbag] at htakes
        cases htakes
      | some b =>
        rw [hbag] at htakes hplain
        exact bagFamily_ne_zero htakes hplain
    rcases hspace with hfree | ⟨hstack, hmerge⟩
    · have hno : false = true → 1 < (T item.entry).stackable := fun h => absurd h Bool.false_ne_true
      exact hin _ (kindVisits_mem hmem hno hfamily) (hvisits false hfree)
    · exact hin _ (kindVisits_mem hmem (fun _ => hstack) hfamily) (hvisits true hmerge)

end Player

end Sunstrider.Inventory
