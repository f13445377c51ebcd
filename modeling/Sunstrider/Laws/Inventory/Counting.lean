import Mathlib.Algebra.BigOperators.Group.Finset.Piecewise
import Mathlib.Data.Fintype.Prod
import Sunstrider.Laws.Inventory.Shells
import Sunstrider.Lib.Run

/-!
# What is counted is destroyed

`HasItemCount` asks for what `GetItemCount` gives (`hasItemCount_iff`). The loops of `DestroyItemCount`
keep `Spent`: what was destroyed and what is left are what there was, and nothing is left at the places
that were gone through. The loops go through all places that are counted (`destroyItemCount_spends`).
-/

namespace Sunstrider.Inventory

open Sunstrider.Lib (Ends)

variable {T : Templates}

variable {first last : ℕ}

theorem nodup_slotsFrom (h : last ≤ 256) : (slotsFrom first last).Nodup := by
  apply List.Nodup.map_on ?_ List.nodup_range'
  intro a ha b hb heq
  rw [List.mem_range'_1] at ha hb
  have hval := congrArg Fin.val heq
  simp only [Fin.val_ofNat] at hval
  omega

namespace Player

variable {v : Player} {p q : Pos} {item : Item} {entry count : ℕ} {inBankAlso : Bool}

/-! ## Counting -/

/-- The count stops early where it has enough. -/
theorem hasItemCountFrom_iff {tempcount : ℕ} (h : tempcount < count) (ps : List Pos) :
    v.hasItemCountFrom T entry count tempcount ps = true ↔
      count ≤ tempcount + (ps.map (v.countAt T entry)).sum := by
  induction ps generalizing tempcount with
  | nil =>
    simp only [hasItemCountFrom, List.map_nil, List.sum_nil, Bool.false_eq_true, false_iff]
    omega
  | cons p ps ih =>
    rw [List.map_cons, List.sum_cons]
    cases hat : v.getItemByPos T p with
    | none =>
      have hcount : v.countAt T entry p = 0 := by simp only [countAt, hat]
      simp only [hasItemCountFrom, hat]
      rw [ih h, hcount, Nat.zero_add]
    | some item =>
      by_cases hentry : item.entry = entry
      · have hcount : v.countAt T entry p = item.count := by simp only [countAt, hat, if_pos hentry]
        simp only [hasItemCountFrom, hat, if_pos hentry, hcount]
        split
        next hle =>
          simp only [true_iff]
          omega
        next hlt =>
          rw [ih (not_le.mp hlt), Nat.add_assoc]
      · have hcount : v.countAt T entry p = 0 := by simp only [countAt, hat, if_neg hentry]
        simp only [hasItemCountFrom, hat, if_neg hentry]
        rw [ih h, hcount, Nat.zero_add]

theorem hasItemCount_iff (v : Player) (entry count : ℕ) (inBankAlso : Bool) :
    v.hasItemCount T entry count inBankAlso = true ↔ count ≤ v.getItemCountOf T entry inBankAlso := by
  unfold hasItemCount
  split
  next hzero => simp [hzero]
  next hne =>
    rw [hasItemCountFrom_iff (Nat.pos_of_ne_zero hne), Nat.zero_add]
    rfl

/-- A place that is searched, whatever bags there are. -/
def isSearched (inBankAlso : Bool) (p : Pos) : Bool :=
  p.1 = inventorySlotBag0 && (p.2.val < 39 || isKeyringSlot p.2 || inBankAlso && isBankSlot p.2)
    || isInventoryBagSlot p.1 || inBankAlso && isBankBagSlot p.1

/-- The places that are searched. -/
@[irreducible]
def searched (inBankAlso : Bool) : Finset Pos := Finset.univ.filter fun p => isSearched inBankAlso p

theorem mem_searched : p ∈ searched inBankAlso ↔ isSearched inBankAlso p = true := by
  unfold searched
  exact Finset.mem_filter_univ p

theorem mem_ownPositions (h : last ≤ 256) :
    p ∈ ownPositions (slotsFrom first last) ↔
      p.1 = inventorySlotBag0 ∧ first ≤ p.2.val ∧ p.2.val < last := by
  unfold ownPositions
  rw [List.mem_map]
  constructor
  · rintro ⟨slot, hslot, rfl⟩
    exact ⟨rfl, (mem_slotsFrom h).mp hslot⟩
  · intro hp
    exact ⟨p.2, (mem_slotsFrom h).mpr hp.2, Prod.ext hp.1.symm rfl⟩

theorem mem_bagPositions {slots : List (Fin 256)} (hbags : ∀ slot ∈ slots, isBagSlot slot = true) :
    p ∈ v.bagPositions T slots ↔
      p.1 ∈ slots ∧ ∃ bag, v.items p.1 = some bag ∧ p.2.val < bag.getBagSize T := by
  unfold bagPositions
  rw [List.mem_flatMap]
  constructor
  · rintro ⟨slot, hslot, hp⟩
    rw [getItemByPos_bagSlot v (hbags slot hslot)] at hp
    cases hbag : v.items slot with
    | none =>
      rw [hbag] at hp
      cases hp
    | some bag =>
      rw [hbag] at hp
      obtain ⟨j, hj, rfl⟩ := List.mem_map.mp hp
      exact ⟨hslot, bag, hbag, ((mem_slotsFrom (getBagSize_le bag)).mp hj).2⟩
  · rintro ⟨hslot, bag, hbag, hlt⟩
    refine ⟨p.1, hslot, ?_⟩
    rw [getItemByPos_bagSlot v (hbags p.1 hslot), hbag]
    exact List.mem_map.mpr ⟨p.2, (mem_slotsFrom (getBagSize_le bag)).mpr ⟨Nat.zero_le _, hlt⟩, rfl⟩

theorem nodup_ownPositions (h : last ≤ 256) : (ownPositions (slotsFrom first last)).Nodup :=
  (nodup_slotsFrom h).map fun _ _ heq => congrArg Prod.snd heq

theorem nodup_bagPositions {slots : List (Fin 256)} (hslots : slots.Nodup) :
    (v.bagPositions T slots).Nodup := by
  unfold bagPositions
  rw [List.nodup_flatMap]
  constructor
  · intro slot hslot
    cases v.getItemByPos T (inventorySlotBag0, slot) with
    | none => exact List.nodup_nil
    | some bag => exact (nodup_slotsFrom (getBagSize_le bag)).map fun _ _ heq => congrArg Prod.snd heq
  · apply hslots.imp
    intro a b hne x ha hb
    apply hne
    have hfirst : ∀ slot, x ∈ v.bagPositions T [slot] → x.1 = slot := by
      intro slot hx
      rw [bagPositions, List.flatMap_singleton] at hx
      cases hbag : v.getItemByPos T (inventorySlotBag0, slot) with
      | none =>
        rw [hbag] at hx
        cases hx
      | some bag =>
        rw [hbag] at hx
        obtain ⟨j, -, rfl⟩ := List.mem_map.mp hx
        rfl
    rw [← hfirst a (by rwa [bagPositions, List.flatMap_singleton]),
      hfirst b (by rwa [bagPositions, List.flatMap_singleton])]

theorem inventoryBags : ∀ slot ∈ slotsFrom 19 23, isInventoryBagSlot slot = true := by
  intro slot hslot
  simpa [isInventoryBagSlot] using (mem_slotsFrom (by decide)).mp hslot

theorem bankBags : ∀ slot ∈ slotsFrom 67 74, isBankBagSlot slot = true := by
  intro slot hslot
  simpa [isBankBagSlot] using (mem_slotsFrom (by decide)).mp hslot

variable {slot : Fin 256}

theorem isBagSlot_of_inventory (h : isInventoryBagSlot slot = true) : isBagSlot slot = true := by
  unfold isBagSlot
  rw [h, Bool.true_or]

theorem isBagSlot_of_bank (h : isBankBagSlot slot = true) : isBagSlot slot = true := by
  unfold isBagSlot
  rw [h, Bool.or_true]

theorem countAt_outside (hbag : isBagSlot p.1 = true)
    (hout : ¬ ∃ bag, v.items p.1 = some bag ∧ p.2.val < bag.getBagSize T) :
    v.countAt T entry p = 0 := by
  unfold countAt
  cases hat : v.getItemByPos T p with
  | none => rfl
  | some item =>
    rcases hasPlace_of_getItemByPos hat with hown | hin
    · exact absurd hown.1 (bagSlot_ne_bag0 hbag)
    · exact absurd hin.2 hout

theorem mem_countedPositions :
    p ∈ v.countedPositions T inBankAlso ↔ isSearched inBankAlso p = true ∧
      (p.1 = inventorySlotBag0 ∨ ∃ bag, v.items p.1 = some bag ∧ p.2.val < bag.getBagSize T) := by
  have hinventory := fun slot hslot => isBagSlot_of_inventory (inventoryBags slot hslot)
  have hbank := fun slot hslot => isBagSlot_of_bank (bankBags slot hslot)
  have hown : p.1 = inventorySlotBag0 ↔ p.1.val = 255 := Fin.ext_iff
  have hcounted : p ∈ v.countedPositions T inBankAlso ↔
      ((p ∈ ownPositions (slotsFrom 0 39) ∨ p ∈ ownPositions (slotsFrom 86 118)) ∨
        p ∈ v.bagPositions T (slotsFrom 19 23)) ∨
      inBankAlso = true ∧ (p ∈ ownPositions (slotsFrom 39 67) ∨
        p ∈ v.bagPositions T (slotsFrom 67 74)) := by
    unfold countedPositions
    cases inBankAlso <;> simp [List.mem_append, or_assoc]
  rw [hcounted, mem_ownPositions (by decide), mem_ownPositions (by decide),
    mem_ownPositions (by decide), mem_bagPositions hinventory, mem_bagPositions hbank,
    mem_slotsFrom (by decide), mem_slotsFrom (by decide)]
  simp only [isSearched, isKeyringSlot, isBankSlot, isInventoryBagSlot, isBankBagSlot,
    Bool.or_eq_true, Bool.and_eq_true, decide_eq_true_eq]
  generalize (∃ bag, v.items p.1 = some bag ∧ p.2.val < bag.getBagSize T) = filled
  rw [hown]
  by_cases hbag : p.1.val = 255
  · have hinside : ¬ 255 < 23 ∧ ¬ 255 < 74 := by decide
    cases inBankAlso <;> simp only [Bool.false_eq_true, false_and, true_and, or_false] <;> omega
  · simp only [hbag, false_and, or_false, false_or, or_and_right, and_assoc]

theorem disjoint_ownPositions {a b c d : ℕ} (hb : b ≤ 256) (hd : d ≤ 256) (h : b ≤ c ∨ d ≤ a) :
    List.Disjoint (ownPositions (slotsFrom a b)) (ownPositions (slotsFrom c d)) := by
  intro p hp hq
  rw [mem_ownPositions hb] at hp
  rw [mem_ownPositions hd] at hq
  omega

theorem disjoint_own_bagPositions (h : last ≤ 256) {slots : List (Fin 256)}
    (hbags : ∀ slot ∈ slots, isBagSlot slot = true) :
    List.Disjoint (ownPositions (slotsFrom first last)) (v.bagPositions T slots) := by
  intro p hp hq
  rw [mem_ownPositions h] at hp
  rw [mem_bagPositions hbags] at hq
  exact bagSlot_ne_bag0 (hbags p.1 hq.1) hp.1

/-- No position is counted twice. -/
theorem nodup_countedPositions (v : Player) (inBankAlso : Bool) :
    (v.countedPositions T inBankAlso).Nodup := by
  have hinventory := fun slot hslot => isBagSlot_of_inventory (inventoryBags slot hslot)
  have hbank := fun slot hslot => isBagSlot_of_bank (bankBags slot hslot)
  have hcarried : (ownPositions (slotsFrom 0 39) ++ ownPositions (slotsFrom 86 118)
      ++ v.bagPositions T (slotsFrom 19 23)).Nodup := by
    apply List.Nodup.append
    · exact (nodup_ownPositions (by decide)).append (nodup_ownPositions (by decide))
        (disjoint_ownPositions (by decide) (by decide) (by decide))
    · exact nodup_bagPositions (nodup_slotsFrom (by decide))
    · rw [List.disjoint_append_left]
      exact ⟨disjoint_own_bagPositions (by decide) hinventory,
        disjoint_own_bagPositions (by decide) hinventory⟩
  unfold countedPositions
  cases inBankAlso
  · rw [if_neg Bool.false_ne_true, List.append_nil]
    exact hcarried
  · rw [if_pos rfl]
    apply hcarried.append
    · exact (nodup_ownPositions (by decide)).append (nodup_bagPositions (nodup_slotsFrom (by decide)))
        (disjoint_own_bagPositions (by decide) hbank)
    · -- what is carried is searched without the bank
      intro p hp hq
      have hsearched : isSearched false p = true := by
        apply (mem_countedPositions.mp (?_ : p ∈ v.countedPositions T false)).1
        unfold countedPositions
        rw [if_neg Bool.false_ne_true, List.append_nil]
        exact hp
      rw [List.mem_append, mem_ownPositions (by decide), mem_bagPositions hbank,
        mem_slotsFrom (by decide)] at hq
      simp only [isSearched, isKeyringSlot, isInventoryBagSlot, Bool.false_and, Bool.or_false,
        Bool.or_eq_true, Bool.and_eq_true, decide_eq_true_eq] at hsearched
      have hval : inventorySlotBag0.val = 255 := rfl
      rcases hsearched with ⟨hown, hslot⟩ | hbag
      · rw [hown] at hq
        omega
      · rcases hq with ⟨hown, -⟩ | ⟨hbank, -⟩
        · rw [hown] at hbag
          omega
        · omega

/-- `GetItemCount` is the sum over the places that are searched. -/
theorem getItemCountOf_eq (v : Player) (entry : ℕ) (inBankAlso : Bool) :
    v.getItemCountOf T entry inBankAlso = ∑ p ∈ searched inBankAlso, v.countAt T entry p := by
  unfold getItemCountOf
  rw [← List.sum_toFinset _ (nodup_countedPositions v inBankAlso)]
  apply Finset.sum_subset
  · intro p hp
    exact mem_searched.mpr (mem_countedPositions.mp (List.mem_toFinset.mp hp)).1
  · intro p hp hnot
    rw [List.mem_toFinset, mem_countedPositions, not_and, not_or] at hnot
    have hsearched := mem_searched.mp hp
    obtain ⟨hown, hout⟩ := hnot hsearched
    apply countAt_outside ?_ hout
    simp only [isSearched, hown, decide_false, Bool.false_and, Bool.false_or, Bool.or_eq_true,
      Bool.and_eq_true] at hsearched
    rcases hsearched with hinventory | ⟨-, hbank⟩
    · exact isBagSlot_of_inventory hinventory
    · exact isBagSlot_of_bank hbank

/-- What is counted where one place counts for something else. -/
theorem getItemCountOf_update {v' : Player} {n : ℕ} (hp : p ∈ searched inBankAlso)
    (h : v'.countAt T entry = Function.update (v.countAt T entry) p n) :
    v'.getItemCountOf T entry inBankAlso + v.countAt T entry p =
      v.getItemCountOf T entry inBankAlso + n := by
  rw [getItemCountOf_eq, getItemCountOf_eq, h, Finset.sum_update_of_mem hp,
    ← Finset.add_sum_erase _ _ hp, Finset.sdiff_singleton_eq_erase]
  omega

/-! ## Destroying -/

theorem countAt_of_item (h : v.getItemByPos T p = some item) (hentry : item.entry = entry) :
    v.countAt T entry p = item.count := by
  simp only [countAt, h, if_pos hentry]

/-- What is removed is no longer counted. -/
theorem countAt_removeItem (h : v.getItemByPos T p = some item)
    (hin : isBagPos p = true → ∀ q, q.1 = p.2 → v.countAt T entry q = 0) :
    (v.removeItem T p).countAt T entry = Function.update (v.countAt T entry) p 0 := by
  ext1 q
  have hq := shellAt_removeItem h q
  by_cases hself : q = p
  · rw [if_pos (.inl hself)] at hq
    rw [hself] at hq ⊢
    rw [Function.update_self, countAt_of_shellAt, hq]
  · rw [Function.update_of_ne hself]
    by_cases hinside : isBagPos p = true ∧ q.1 = p.2
    · rw [if_pos (.inr hinside)] at hq
      rw [hin hinside.1 q hinside.2, countAt_of_shellAt, hq]
    · rw [if_neg (not_or.mpr ⟨hself, hinside⟩)] at hq
      exact countAt_congr hq

theorem countAt_setCount (h : v.getItemByPos T p = some item) (hentry : item.entry = entry) (n : ℕ) :
    (v.setCount T p n).countAt T entry = Function.update (v.countAt T entry) p n := by
  have hafter := shellAt_setCount h n
  ext1 q
  by_cases hself : q = p
  · rw [hself, Function.update_self, countAt_of_shellAt, hafter, Function.update_self]
    exact if_pos hentry
  · rw [Function.update_of_ne hself]
    exact countAt_congr (by rw [hafter, Function.update_of_ne hself])

/-- What was asked for is destroyed, or all there was. -/
structure Spends (T : Templates) (entry count : ℕ) (inBankAlso : Bool) (v v' : Player) : Prop where
  total : v'.getItemCountOf T entry inBankAlso + min count (v.getItemCountOf T entry inBankAlso) =
    v.getItemCountOf T entry inBankAlso
  shrinks : Shrinks T (isSearched inBankAlso) entry v v'

/-- The invariant of the loops: the places that were gone through are empty, and `remcount` were
destroyed. -/
structure Spent (T : Templates) (entry count : ℕ) (inBankAlso : Bool) (v : Player) (done : Set Pos)
    (s : Player × ℕ) : Prop where
  cleared : ∀ p ∈ done, s.1.countAt T entry p = 0
  total : s.1.getItemCountOf T entry inBankAlso + s.2 = v.getItemCountOf T entry inBankAlso
  le : s.2 ≤ count
  shrinks : Shrinks T (isSearched inBankAlso) entry v s.1

/-- Nothing is destroyed yet. -/
theorem Spent.start (v : Player) : Spent T entry count inBankAlso v ∅ (v, 0) :=
  ⟨fun _ h => absurd h (Set.notMem_empty _), Nat.add_zero _, Nat.zero_le _, .refl v⟩

variable {done : Set Pos} {s : Player × ℕ}

section

variable (h : Spent T entry count inBankAlso v done s)

include h

theorem Spent.union {more : Set Pos} (hmore : ∀ p ∈ more, s.1.countAt T entry p = 0) :
    Spent T entry count inBankAlso v (done ∪ more) s where
  cleared p hp := hp.elim (h.cleared p) (hmore p)
  total := h.total
  le := h.le
  shrinks := h.shrinks

theorem Spent.mono {less : Set Pos}
    (hless : less ⊆ done) : Spent T entry count inBankAlso v less s where
  cleared p hp := h.cleared p (hless hp)
  total := h.total
  le := h.le
  shrinks := h.shrinks

theorem Spent.spends (hall : ∀ p, isSearched inBankAlso p = true → p ∈ done) :
    Spends T entry count inBankAlso v s.1 := by
  have hzero : s.1.getItemCountOf T entry inBankAlso = 0 := by
    rw [getItemCountOf_eq]
    exact Finset.sum_eq_zero fun p hp => h.cleared p (hall p (mem_searched.mp hp))
  refine ⟨?_, h.shrinks⟩
  have htotal := h.total
  have hle := h.le
  omega

end

/-- **A round** empties a place, or returns with all that was asked for. -/
theorem Spent.round {mayDestroy : Player → Pos → Bool} (may : ∀ v p, mayDestroy v p = true)
    (h : Spent T entry count inBankAlso v done s) (hp : isSearched inBankAlso p = true)
    (hbag : isBagPos p = true → isInventoryBagSlot p.2 = true ∧ ∀ q : Pos, q.1 = p.2 → q ∈ done) :
    Ends (Spent T entry count inBankAlso v (done ∪ {p})) (Spends T entry count inBankAlso v)
      (destroyRound T entry count mayDestroy s p) := by
  have hmem := mem_searched.mpr hp
  unfold destroyRound
  cases hat : s.1.getItemByPos T p with
  | none =>
    apply h.union
    rintro q rfl
    simp only [countAt, hat]
  | some item =>
    dsimp only
    by_cases hentry : item.entry = entry
    · have hcount := countAt_of_item hat hentry
      have hin : isBagPos p = true → ∀ q, q.1 = p.2 → s.1.countAt T entry q = 0 :=
        fun hpos q hq => h.cleared q ((hbag hpos).2 q hq)
      have htotal := h.total
      rw [if_neg (not_not.mpr hentry)]
      split
      next hle =>
        have hafter := countAt_removeItem hat hin
        have hsum := getItemCountOf_update hmem hafter
        have hshrinks : Shrinks T (isSearched inBankAlso) entry v (s.1.removeItem T p) :=
          h.shrinks.trans (shrinks_removeItem hat hp hentry fun hpos => (hbag hpos).1)
        rw [if_pos (may s.1 p), destroyItem_eq]
        split
        · next hall =>
          refine ⟨?_, hshrinks⟩
          omega
        · refine ⟨?_, by dsimp only; omega, by dsimp only; omega, hshrinks⟩
          intro q hq
          show (s.1.removeItem T p).countAt T entry q = 0
          rw [hafter]
          by_cases hself : q = p
          · rw [hself, Function.update_self]
          · rw [Function.update_of_ne hself]
            exact h.cleared q (hq.resolve_right hself)
      next hlt =>
        have hsum := getItemCountOf_update hmem
          (countAt_setCount hat hentry (item.count + s.2 - count))
        refine ⟨by omega, h.shrinks.trans (shrinks_setCount hat hp hentry ?_)⟩
        omega
    · rw [if_pos hentry]
      apply h.union
      rintro q rfl
      simp only [countAt, hat, if_neg hentry]

section Loops

variable {mayDestroy : Player → Pos → Bool} (may : ∀ v p, mayDestroy v p = true)

include may

section

variable (h : Spent T entry count inBankAlso v done s)

include h

/-- One loop over slots. -/
theorem Spent.slots (hlast : last ≤ 256)
    (hsearched : ∀ slot : Fin 256, first ≤ slot.val → slot.val < last →
      isSearched inBankAlso
    (inventorySlotBag0, slot) = true)
    (hbags : ∀ slot : Fin 256, first ≤ slot.val → slot.val < last → isBagSlot slot = true →
      isInventoryBagSlot slot = true ∧ ∀ q : Pos, q.1 = slot → q ∈ done) :
    Ends (Spent T entry count inBankAlso v
        (done ∪ {p | p.1 = inventorySlotBag0 ∧ first ≤ p.2.val ∧ p.2.val < last}))
      (Spends T entry count inBankAlso v)
      ((ownPositions (slotsFrom first last)).foldlM (destroyRound T entry count mayDestroy) s) := by
  have hloop : Ends (Spent T entry count inBankAlso v
        (done ∪ {p | ∃ q ∈ ownPositions (slotsFrom first last), p ∈ ({q} : Set Pos)}))
      (Spends T entry count inBankAlso v)
      ((ownPositions (slotsFrom first last)).foldlM (destroyRound T entry count mayDestroy) s) := by
    refine Ends.foldlM _ h fun p hp done' s' hdone h' => ?_
    obtain ⟨hown, hfirst, hlt⟩ := (mem_ownPositions hlast).mp hp
    apply h'.round may
    · rw [← Prod.mk.eta (p := p), hown]
      exact hsearched p.2 hfirst hlt
    · intro hpos
      obtain ⟨hslot, hin⟩ := hbags p.2 hfirst hlt (isBagPos_iff.mp hpos).2
      exact ⟨hslot, fun q hq => hdone (hin q hq)⟩
  apply hloop.mono
  intro t ht
  apply ht.mono
  apply Set.union_subset_union_right
  intro p hp
  exact ⟨p, (mem_ownPositions hlast).mpr hp, rfl⟩

/-- One loop over bags. -/
theorem Spent.bags {slots : List (Fin 256)} (hslots : ∀ slot ∈ slots, isBagSlot slot = true)
    (hsearched : ∀ p : Pos, p.1 ∈ slots → isSearched inBankAlso p = true) :
    Ends (Spent T entry count inBankAlso v (done ∪ {p | ∃ slot ∈ slots, p ∈ {q : Pos | q.1 = slot}}))
      (Spends T entry count inBankAlso v)
      (slots.foldlM (fun s bag =>
        (s.1.bagPositions T [bag]).foldlM (destroyRound T entry count mayDestroy) s) s) := by
  refine Ends.foldlM _ h fun slot hslot done' s' _ h' => ?_
  have hone : ∀ a ∈ [slot], isBagSlot a = true := by
    intro a ha
    rw [List.mem_singleton.mp ha]
    exact hslots slot hslot
  -- what is beyond the size of the bag counts for nothing
  have houtside : ∀ p ∈ {p : Pos | p.1 = slot ∧ p ∉ s'.1.bagPositions T [slot]},
      s'.1.countAt T entry p = 0 := by
    rintro p ⟨rfl, hp⟩
    rw [mem_bagPositions hone, not_and] at hp
    exact countAt_outside (hslots _ hslot) (hp List.mem_cons_self)
  have hloop : Ends (Spent T entry count inBankAlso v
        (done' ∪ {p : Pos | p.1 = slot ∧ p ∉ s'.1.bagPositions T [slot]} ∪
          {p | ∃ q ∈ s'.1.bagPositions T [slot], p ∈ ({q} : Set Pos)}))
      (Spends T entry count inBankAlso v)
      ((s'.1.bagPositions T [slot]).foldlM (destroyRound T entry count mayDestroy) s') := by
    refine Ends.foldlM _ (h'.union houtside) fun p hp _ _ _ h'' => ?_
    have hin : p.1 = slot := List.mem_singleton.mp ((mem_bagPositions hone).mp hp).1
    apply h''.round may (hsearched p (hin ▸ hslot))
    intro hpos
    exact absurd (isBagPos_iff.mp hpos).1 (bagSlot_ne_bag0 (hin ▸ hslots slot hslot))
  apply hloop.mono
  intro t ht
  apply ht.mono
  rintro p (hp | hp)
  · exact .inl (.inl hp)
  · by_cases hmem : p ∈ s'.1.bagPositions T [slot]
    · exact .inr ⟨p, hmem, rfl⟩
    · exact .inl (.inr ⟨hp, hmem⟩)

/-- A loop over slots of the player himself that hold no bags in use. -/
theorem Spent.plainSlots (hlast : last ≤ 256) (hplain : 23 ≤ first ∧ last ≤ 67 ∨ 74 ≤ first)
    (hsearched : ∀ slot : Fin 256, first ≤ slot.val → slot.val < last →
      isSearched inBankAlso (inventorySlotBag0, slot) = true) :
    Ends (Spent T entry count inBankAlso v
        (done ∪ {p | p.1 = inventorySlotBag0 ∧ first ≤ p.2.val ∧ p.2.val < last}))
      (Spends T entry count inBankAlso v)
      ((ownPositions (slotsFrom first last)).foldlM (destroyRound T entry count mayDestroy) s) := by
  apply h.slots may hlast hsearched
  intro slot hfirst hlt hbag
  simp only [isBagSlot, isInventoryBagSlot, isBankBagSlot, Bool.or_eq_true, Bool.and_eq_true,
    decide_eq_true_eq] at hbag
  omega

end

end Loops

theorem isSearched_own (h : slot.val < 39 ∨ isKeyringSlot slot = true) :
    isSearched inBankAlso (inventorySlotBag0, slot) = true := by
  rcases h with hlt | hring
  · simp [isSearched, hlt]
  · simp [isSearched, hring]

theorem isSearched_inventoryBag (h : p.1 ∈ slotsFrom 19 23) : isSearched inBankAlso p = true := by
  simp [isSearched, inventoryBags p.1 h]

theorem spends_of_ends {x : Except Player (Player × ℕ)} :
    Ends (fun s => Spends T entry count inBankAlso v s.1) (Spends T entry count inBankAlso v) x →
      Spends T entry count inBankAlso v (match x with | .ok s => s.1 | .error v => v) := by
  intro h
  cases x with
  | ok s => exact h
  | error v => exact h

/-- **What `DestroyItemCount` destroys.** -/
theorem destroyItemCount_spends (R : Rules) (v : Player) (entry count : ℕ) (inBankAlso : Bool) :
    Spends T entry count inBankAlso v (v.destroyItemCount T R entry count false inBankAlso) := by
  have may : ∀ (_ : Player) (_ : Pos), true = true := fun _ _ => rfl
  have hinventory := fun slot hslot => isBagSlot_of_inventory (inventoryBags slot hslot)
  have hbank := fun slot hslot => isBagSlot_of_bank (bankBags slot hslot)
  unfold destroyItemCount
  apply spends_of_ends
  -- the backpack, the key ring and the bags
  refine ((Spent.start v).plainSlots may (by decide) (by decide) ?_).bind fun s h => ?_
  · intro slot _ hlt
    exact isSearched_own (.inl hlt)
  refine (h.plainSlots may (by decide) (by decide) ?_).bind fun s h => ?_
  · intro slot hfirst hlt
    exact isSearched_own (.inr (by simp [isKeyringSlot, hfirst, hlt]))
  refine (h.bags may hinventory fun p => isSearched_inventoryBag).bind fun s h => ?_
  -- the equipment and the bags themselves, in which nothing of the entry is left
  refine (h.slots (fun _ _ => rfl) (by decide) ?_ ?_).bind fun s h => ?_
  · intro slot _ hlt
    exact isSearched_own (.inl (by omega))
  · intro slot _ hlt hbag
    simp only [isBagSlot, isInventoryBagSlot, isBankBagSlot, Bool.or_eq_true, Bool.and_eq_true,
      decide_eq_true_eq] at hbag
    have hslot : 19 ≤ slot.val ∧ slot.val < 23 := by omega
    refine ⟨by simp [isInventoryBagSlot, hslot], ?_⟩
    intro q hq
    exact .inr ⟨slot, (mem_slotsFrom (by decide)).mpr hslot, hq⟩
  cases inBankAlso with
  | false =>
    apply h.spends
    intro p hp
    simp only [isSearched, isKeyringSlot, isInventoryBagSlot, Bool.false_and, Bool.or_false,
      Bool.or_eq_true, Bool.and_eq_true, decide_eq_true_eq] at hp
    simp only [Set.mem_union, Set.mem_ofPred_eq, Set.mem_empty_iff_false, exists_eq_right',
      mem_slotsFrom (show 23 ≤ 256 by decide)]
    omega
  | true =>
    refine (h.plainSlots may (by decide) (by decide) ?_).bind fun s h => ?_
    · intro slot hfirst hlt
      simp [isSearched, isBankSlot, hfirst, hlt]
    refine (h.bags may hbank ?_).mono fun s h => ?_
    · intro p hp
      simp [isSearched, bankBags p.1 hp]
    apply h.spends
    intro p hp
    simp only [isSearched, isKeyringSlot, isInventoryBagSlot, isBankSlot, isBankBagSlot,
      Bool.true_and, Bool.or_eq_true, Bool.and_eq_true, decide_eq_true_eq] at hp
    simp only [Set.mem_union, Set.mem_ofPred_eq, Set.mem_empty_iff_false, exists_eq_right',
      mem_slotsFrom (show 23 ≤ 256 by decide), mem_slotsFrom (show 74 ≤ 256 by decide)]
    omega

/-! ## Counting and destroying -/

/-- What the destruction of items of an entry leaves: as many fewer as were asked for, no empty stack
that was not empty before, and every item of another entry, unless it lay in a bag of the entry that was
equipped and is gone. -/
structure Destroyed (T : Templates) (entry count : ℕ) (inBankAlso : Bool) (v v' : Player) : Prop where
  total : v'.getItemCountOf T entry inBankAlso + min count (v.getItemCountOf T entry inBankAlso) =
    v.getItemCountOf T entry inBankAlso
  positive : ∀ p item, v'.getItemByPos T p = some item → item.count = 0 →
    v.shellAt T p = some item.shell
  others : ∀ p item, v.getItemByPos T p = some item → item.entry ≠ entry →
    v'.shellAt T p = some item.shell ∨
      isInventoryBagSlot p.1 = true ∧ v'.getItemByPos T (inventorySlotBag0, p.1) = none ∧
        ∃ bag, v.getItemByPos T (inventorySlotBag0, p.1) = some bag ∧ bag.entry = entry

theorem exists_of_shellAt (h : v.shellAt T p = some item) :
    ∃ whole, v.getItemByPos T p = some whole ∧ whole.shell = item := Option.map_eq_some_iff.mp h

theorem Spends.destroyed {v' : Player} (h : Spends T entry count inBankAlso v v') :
    Destroyed T entry count inBankAlso v v' where
  total := h.total
  positive := by
    intro p item hat hzero
    have hshell := shellAt_eq_some hat
    cases h.shrinks.places p with
    | same heq => rw [← heq, hshell]
    | spent _ _ _ _ hleft =>
      rcases hleft with hnone | ⟨n, hn, hleft⟩
      · rw [hnone] at hshell
        cases hshell
      · rw [hleft] at hshell
        have hcount := congrArg Item.count (Option.some.inj hshell)
        exact absurd (hcount.trans hzero) (Nat.pos_iff_ne_zero.mp hn)
    | lost _ _ _ _ _ hnone =>
      rw [hnone] at hshell
      cases hshell
  others := by
    intro p item hat hne
    have hshell := shellAt_eq_some hat
    cases h.shrinks.places p with
    | same heq => exact .inl (heq.trans hshell)
    | spent item' _ hat' hentry =>
      rw [hshell] at hat'
      cases hat'
      exact absurd hentry hne
    | lost bag hslot hbag hentry hgone hnone =>
      obtain ⟨whole, hwhole, rfl⟩ := exists_of_shellAt hbag
      exact .inr ⟨hslot, Option.map_eq_none_iff.mp hgone, whole, hwhole, hentry⟩

/-- **What is counted is destroyed**: `HasItemCount` asks for what `GetItemCount` gives, and
`DestroyItemCount` destroys as many, and nothing else but what lies in the bags that it destroys. -/
theorem counting_destroying (T : Templates) (R : Rules) (v : Player) (entry count : ℕ)
    (inBankAlso : Bool) :
    (v.hasItemCount T entry count inBankAlso = true ↔
      count ≤ v.getItemCountOf T entry inBankAlso) ∧
      Destroyed T entry count inBankAlso v
        (v.destroyItemCount T R entry count false inBankAlso) :=
  ⟨hasItemCount_iff v entry count inBankAlso,
    (destroyItemCount_spends R v entry count inBankAlso).destroyed⟩

end Player

end Sunstrider.Inventory
