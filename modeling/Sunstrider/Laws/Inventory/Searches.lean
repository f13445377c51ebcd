import Sunstrider.Laws.Inventory.Places

/-!
# Searches of a storage

`CanStoreItem` and `CanBankItem` search the storage, place after place. What is kept as the places that
are searched take what they have room for (`Kept`) holds when the search is answered
(`Kept.canStoreItemFrom`, `Kept.canBankItemFrom`).
-/

namespace Sunstrider.Inventory

variable {T : Templates}

theorem mem_slotsFrom {first last : ℕ} (h : last ≤ 256) {slot : Fin 256} :
    slot ∈ slotsFrom first last ↔ first ≤ slot.val ∧ slot.val < last := by
  unfold slotsFrom
  rw [List.mem_map]
  constructor
  · rintro ⟨n, hn, rfl⟩
    rw [List.mem_range'_1] at hn
    rw [Fin.val_ofNat, Nat.mod_eq_of_lt (by omega)]
    omega
  · rintro ⟨hle, hlt⟩
    refine ⟨slot.val, List.mem_range'_1.mpr ⟨hle, by omega⟩, ?_⟩
    ext
    rw [Fin.val_ofNat, Nat.mod_eq_of_lt slot.isLt]

theorem getBagSize_le (item : Item) : item.getBagSize T ≤ 256 := by
  unfold Item.getBagSize
  split
  · exact (Nat.lt_succ_iff.mp (T item.entry).containerSlots.isLt).trans (by decide)
  · exact Nat.zero_le _

/-- A position and not all of a bag, or of the storage. -/
def isSpecific (p : Pos) : Bool := p.1 ≠ nullBag && p.2 ≠ nullSlot

/-- The player himself, a slot for bags, or any place. -/
def isContainer (bag : Fin 256) : Bool := bag = nullBag || bag = inventorySlotBag0 || isBagSlot bag

/-- The inventory, where `CanStoreItem` finds room. -/
def isStorePos (p : Pos) : Bool :=
  p.1 = inventorySlotBag0 && (isInventorySlot p.2 || isKeyringSlot p.2) || isInventoryBagSlot p.1

/-- The bank, where `CanBankItem` finds room. -/
def isBankStorePos (p : Pos) : Bool :=
  p.1 = inventorySlotBag0 && isBankSlot p.2 || isBankBagSlot p.1

namespace Player

variable {v : Player} {item : Item} {p : Pos} {swap : Bool}

theorem HasPlace.of_isValidPos (hp : isSpecific p = true) (h : v.isValidPos T p = true) :
    v.HasPlace T p := by
  simp only [isSpecific, Bool.and_eq_true, decide_eq_true_eq] at hp
  unfold isValidPos at h
  rw [if_neg hp.1] at h
  by_cases hown : p.1 = inventorySlotBag0
  · rw [if_pos hown] at h
    refine .inl ⟨hown, ?_⟩
    simp only [isInventoryBagSlot, isInventorySlot, isBankSlot, hp.2, Bool.or_eq_true,
      Bool.and_eq_true, decide_eq_true_eq, false_or] at h
    rcases h with ((((h | h) | h) | h) | h) | h
    · exact .inl (by omega)
    · exact .inl (by omega)
    · exact .inl (by omega)
    · exact .inr h
    · exact .inl (by omega)
    · exact .inl h
  · rw [if_neg hown] at h
    split at h
    · next hbag =>
      rw [getItemByPos_bagSlot v hbag] at h
      cases hat : v.items p.1 with
      | none => simp [hat] at h
      | some bag =>
        rw [hat] at h
        simp only [Bool.or_eq_true, decide_eq_true_eq, hp.2, false_or] at h
        exact .inr ⟨hbag, bag, hat, h⟩
    · cases h

/-- The places that are searched: those of the bag that is asked for, and those of a kind. A slot of
the key ring that is free takes keys only. -/
structure Searched (T : Templates) (v : Player) (item : Item) (kind : Pos → Bool) (p : Pos)
    (merge : Bool) (q : Pos) : Prop where
  hasPlace : v.HasPlace T q
  asked : isBagSlot p.1 = true ∧ q.1 = p.1 ∨ kind q = true
  key : q.1 = inventorySlotBag0 → isKeyringSlot q.2 = true →
    merge = true ∨ (T item.entry).isKey = true

/-- What a search keeps as it goes on: it holds after one more place has taken what it has room for. -/
structure Kept (T : Templates) (v : Player) (item : Item) (kind : Pos → Bool) (p : Pos)
    (I O : Search → Prop) : Prop where
  going : ∀ {s : Search}, s.count ≠ 0 → O s
  take : ∀ {s : Search} {q : Pos} {m : ℕ} {merge : Bool}, I s → O s → s.contains q = false →
    v.space T item merge q = some m → Searched T v item kind p merge q → I (s.take q m)

variable {kind : Pos → Bool} {I O : Search → Prop} {s : Search}

variable {merge : Bool}

/-- **The loop over positions**. -/
theorem Kept.searchPositions (hI : Kept T v item kind p I O) (ps : List Pos) {s : Search} (h : I s)
    (ho : O s) (hps : ∀ q ∈ ps, Searched T v item kind p merge q) :
    I (v.searchPositions T item merge ps s) := by
  induction ps generalizing s with
  | nil => exact h
  | cons q ps ih =>
    have hrest : ∀ r ∈ ps, Searched T v item kind p merge r := by
      intro r hr
      exact hps r (List.mem_cons_of_mem q hr)
    unfold Player.searchPositions
    cases hspace : v.space T item merge q with
    | none => exact ih h ho hrest
    | some m =>
      by_cases hcontains : s.contains q = true
      · simp only [hcontains, if_true]
        exact ih h ho hrest
      · have hnew := Bool.eq_false_iff.mpr hcontains
        have htake := hI.take h ho hnew hspace (hps q List.mem_cons_self)
        simp only [hnew, Bool.false_eq_true, if_false]
        split
        · exact htake
        · next hcount => exact ih htake (hI.going hcount) hrest

theorem Kept.slots (hI : Kept T v item kind p I O) {first last : ℕ} (skip : Pos)
    (hlast : last ≤ 256) (hplace : ∀ slot : Fin 256, first ≤ slot.val → slot.val < last →
      slot.val < 74 ∨ isKeyringSlot slot = true)
    (hkind : ∀ slot : Fin 256, first ≤ slot.val → slot.val < last →
      kind (inventorySlotBag0, slot) = true)
    (hkey : (merge = true ∨ (T item.entry).isKey = true) ∨ last ≤ 86) (h : I s) (ho : O s) :
    I (v.canStoreItemInInventorySlots T item first last merge skip s) := by
  unfold canStoreItemInInventorySlots
  apply hI.searchPositions _ h ho
  intro q hq
  obtain ⟨hown, -⟩ := List.mem_filter.mp hq
  obtain ⟨slot, hslot, rfl⟩ := List.mem_map.mp hown
  obtain ⟨hfirst, hlt⟩ := (mem_slotsFrom hlast).mp hslot
  refine ⟨.inl ⟨rfl, hplace slot hfirst hlt⟩, .inr (hkind slot hfirst hlt), ?_⟩
  intro _ hring
  apply hkey.resolve_right
  intro hle
  simp only [isKeyringSlot, Bool.and_eq_true, decide_eq_true_eq] at hring
  omega

variable {bag : Fin 256} {nonSpecialized : Bool} {skip : Pos}

theorem Kept.inBag (hI : Kept T v item kind p I O) {s' : Search} (hbag : isBagSlot bag = true)
    (hkind : (isBagSlot p.1 = true ∧ bag = p.1) ∨ ∀ slot : Fin 256, kind (bag, slot) = true)
    (h : I s) (ho : O s)
    (hs' : v.canStoreItemInBag T item bag merge nonSpecialized skip s = .ok s') :
    I s' := by
  unfold canStoreItemInBag at hs'
  split at hs'
  · cases hs'
  · split at hs'
    · cases hs'
    · next b hat =>
      split at hs'
      · cases hs'
      · split at hs'
        · cases hs'
        · cases hs'
          apply hI.searchPositions _ h ho
          intro q hq
          obtain ⟨slot, hslot, rfl⟩ := List.mem_map.mp hq
          obtain ⟨-, hlt⟩ :=
            (mem_slotsFrom (getBagSize_le b)).mp (List.mem_of_mem_filter hslot)
          rw [getItemByPos_bagSlot v hbag] at hat
          refine ⟨.inr ⟨hbag, b, hat, hlt⟩, ?_, ?_⟩
          · exact hkind.imp_right fun hkind => hkind slot
          · intro hown
            exact absurd hown (bagSlot_ne_bag0 hbag)

theorem Kept.searchBag (hI : Kept T v item kind p I O) (hbag : isBagSlot bag = true)
    (hkind : ∀ slot : Fin 256, kind (bag, slot) = true) (h : I s) (ho : O s) :
    I (v.searchBag T item bag merge nonSpecialized skip s) := by
  unfold Player.searchBag
  split
  · next s' hs' => exact hI.inBag hbag (.inr hkind) h ho hs'
  · exact h

variable {res : InventoryResult}

theorem inBag_ne_ok (h : v.canStoreItemInBag T item bag merge nonSpecialized skip s = .error res) :
    res ≠ .ok := by
  rintro rfl
  unfold canStoreItemInBag at h
  split at h
  · cases h
  · split at h
    · cases h
    · split at h
      · cases h
      · split at h <;> cases h

theorem inSpecificSlot_ne_ok (h : v.canStoreItemInSpecificSlot T item p swap s = .error res) :
    res ≠ .ok := by
  rintro rfl
  unfold canStoreItemInSpecificSlot at h
  split at h
  · split at h
    · cases h
    · split at h <;> cases h
  · split at h
    · split at h
      · cases h
      · split at h <;> cases h
    · split at h
      · cases h
      · split at h <;> cases h

/-! ## Answers -/

/-- A search that is going on keeps what it keeps, and so does one that is answered: with
`EQUIP_ERR_OK` where there is nothing left to store, and none of the stack is too many. -/
def Settles (I O : Search → Prop) (noSimilar : ℕ) : Except Answer Search → Prop
  | .ok s => I s ∧ O s
  | .error (res, dest) => ∃ s, I s ∧ s.dest = dest ∧ (res = .ok → s.count = 0 ∧ noSimilar = 0)

variable {noSimilar : ℕ}

theorem Settles.bind {x : Except Answer Search} {f : Search → Except Answer Search}
    (h : Settles I O noSimilar x) (hf : ∀ s, I s → O s → Settles I O noSimilar (f s)) :
    Settles I O noSimilar (x >>= f) := by
  cases x with
  | ok s => exact hf s h.1 h.2
  | error a => exact h

theorem settles_refusal (h : I s) (hres : res ≠ .ok) :
    Settles I O noSimilar (.error (res, s.dest)) := ⟨s, h, rfl, fun hok => absurd hok hres⟩

theorem Kept.leave (hI : Kept T v item kind p I O) (h : I s) :
    Settles I O noSimilar (leave noSimilar s) := by
  unfold Player.leave
  split
  next hzero =>
    refine ⟨s, h, rfl, fun hok => ⟨hzero, ?_⟩⟩
    by_contra hne
    rw [if_neg hne] at hok
    cases hok
  next hne => exact ⟨h, hI.going hne⟩

theorem Kept.foldlM (hI : Kept T v item kind p I O) (searches : List (Search → Search)) {s : Search}
    (h : I s) (ho : O s) (keeps : ∀ f ∈ searches, ∀ s, I s → O s → I (f s)) :
    Settles I O noSimilar (searches.foldlM (fun s f => Player.leave noSimilar (f s)) s) := by
  induction searches generalizing s with
  | nil => exact ⟨h, ho⟩
  | cons f searches ih =>
    rw [List.foldlM_cons]
    apply (hI.leave (keeps f List.mem_cons_self s h ho)).bind
    intro s' h' ho'
    apply ih h' ho'
    intro g hg
    exact keeps g (List.mem_cons_of_mem f hg)

theorem Kept.searchOneBag (hI : Kept T v item kind p I O) {slot : Fin 256}
    (hbag : isBagSlot bag = true) (hp : bag = p.1) (h : I s) (ho : O s) :
    Settles I O noSimilar (v.searchOneBag T item bag merge slot s >>= Player.leave noSimilar) := by
  have hkind : isBagSlot p.1 = true ∧ bag = p.1 := ⟨hp ▸ hbag, hp⟩
  unfold Player.searchOneBag
  split
  · next s' hs' => exact hI.leave (hI.inBag hbag (.inl hkind) h ho hs')
  · split
    next s' hs' => exact hI.leave (hI.inBag hbag (.inl hkind) h ho hs')
    next res hres => exact settles_refusal h (inBag_ne_ok hres)

variable {dest : List ItemPosCount}

theorem Settles.answer {full : InventoryResult} {x : Except Answer Search}
    (h : Settles I O noSimilar x) (hfull : full ≠ .ok) (hx : answer full x = (res, dest)) :
    ∃ s, I s ∧ s.dest = dest ∧ (res = .ok → s.count = 0 ∧ noSimilar = 0) := by
  cases x with
  | ok s =>
    cases hx
    exact ⟨s, h.1, rfl, fun hok => absurd hok hfull⟩
  | error a =>
    cases hx
    exact h

/-! ## Storing -/

section Store

variable (hI : Kept T v item isStorePos p I O)

include hI

theorem Kept.keyring (hkey : merge = true ∨ (T item.entry).isKey = true) (h : I s) (ho : O s)
    (skip : Pos) : I (v.canStoreItemInInventorySlots T item 86 118 merge skip s) := by
  have hring : ∀ slot : Fin 256, 86 ≤ slot.val → slot.val < 118 → isKeyringSlot slot = true := by
    intro slot hle hlt
    simp [isKeyringSlot, hle, hlt]
  apply hI.slots skip (by decide) ?_ ?_ (.inl hkey) h ho
  · intro slot hle hlt
    exact .inr (hring slot hle hlt)
  · intro slot hle hlt
    simp [isStorePos, hring slot hle hlt]

theorem Kept.backpack (merge : Bool) (h : I s) (ho : O s) (skip : Pos) :
    I (v.canStoreItemInInventorySlots T item 23 39 merge skip s) := by
  apply hI.slots skip (by decide) ?_ ?_ (.inr (by decide)) h ho
  · intro slot _ hlt
    exact .inl (by omega)
  · intro slot hle hlt
    simp [isStorePos, isInventorySlot, hle, hlt]

theorem Kept.inventoryBag (hbag : bag ∈ slotsFrom 19 23) (merge special : Bool) (h : I s) (ho : O s)
    (skip : Pos) : I (v.searchBag T item bag merge special skip s) := by
  have hslot : isInventoryBagSlot bag = true := by
    simpa [isInventoryBagSlot] using (mem_slotsFrom (by decide)).mp hbag
  apply hI.searchBag ?_ ?_ h ho
  · simp [isBagSlot, hslot]
  · intro slot
    simp [isStorePos, hslot]

theorem Kept.storeInBag (hp : isContainer p.1 = true) (h : I s) (ho : O s) :
    Settles I O noSimilar (v.storeInBag T item p noSimilar s) := by
  have hfree : ∀ s, I s → O s → Settles I O noSimilar (do
      let s ←
        if (T item.entry).isKey then
          Player.leave noSimilar (v.canStoreItemInInventorySlots T item 86 118 false p s)
        else pure s
      Player.leave noSimilar (v.canStoreItemInInventorySlots T item 23 39 false p s)) := by
    intro s h ho
    split
    · next hkey =>
      apply (hI.leave (hI.keyring (.inr hkey) h ho p)).bind
      intro s h ho
      exact hI.leave (hI.backpack false h ho p)
    · exact hI.leave (hI.backpack false h ho p)
  unfold Player.storeInBag
  dsimp only
  split
  · exact ⟨h, ho⟩
  · next hnull =>
    by_cases hown : p.1 = inventorySlotBag0
    · simp only [if_pos hown]
      split
      · refine Settles.bind ?_ hfree
        apply (hI.leave (hI.keyring (.inl rfl) h ho p)).bind
        intro s h ho
        exact hI.leave (hI.backpack true h ho p)
      · exact hfree s h ho
    · have hbag : isBagSlot p.1 = true := by
        simpa [Inventory.isContainer, hnull, hown] using hp
      split
      · apply (hI.searchOneBag hbag rfl h ho).bind
        intro s h ho
        exact hI.searchOneBag hbag rfl h ho
      · exact hI.searchOneBag hbag rfl h ho

theorem Kept.storeSearches (h : I s) (ho : O s) :
    Settles I O noSimilar
      ((v.storeSearches T item p).foldlM (fun s f => Player.leave noSimilar (f s)) s) := by
  have hbags : ∀ merge special : Bool, ∀ f ∈ (slotsFrom 19 23).map fun bag =>
      v.searchBag T item bag merge special p, ∀ s, I s → O s → I (f s) := by
    intro merge special f hf s h ho
    obtain ⟨bag, hbag, rfl⟩ := List.mem_map.mp hf
    exact hI.inventoryBag hbag merge special h ho p
  apply hI.foldlM _ h ho
  intro f hf s h ho
  simp only [Player.storeSearches, List.mem_append, List.mem_ite_nil_right, List.mem_cons,
    List.not_mem_nil, or_false] at hf
  rcases hf with ((⟨-, ((rfl | rfl) | ⟨-, hf⟩) | hf⟩ | ⟨-, ⟨hkey, rfl⟩ | hf⟩) | rfl) | hf
  · exact hI.keyring (.inl rfl) h ho p
  · exact hI.backpack true h ho p
  · exact hbags true false f hf s h ho
  · exact hbags true true f hf s h ho
  · exact hI.keyring (.inr hkey) h ho p
  · exact hbags false false f hf s h ho
  · exact hI.backpack false h ho p
  · exact hbags false true f hf s h ho

theorem Kept.storeSpecific {n : ℕ} (hstart : isSpecific p = false → I ⟨dest, n⟩ ∧ O ⟨dest, n⟩)
    (hspecific : isSpecific p = true → v.HasPlace T p → ∀ s,
      v.canStoreItemInSpecificSlot T item p swap ⟨dest, n⟩ = .ok s → I s) :
    (∃ res, res ≠ .ok ∧ v.storeSpecific T item p swap noSimilar ⟨dest, n⟩ = .error (res, dest)) ∨
      Settles I O noSimilar (v.storeSpecific T item p swap noSimilar ⟨dest, n⟩) := by
  unfold Player.storeSpecific
  split
  next hp =>
    split
    · next hvalid =>
      split
      next s hs => exact .inr (hI.leave (hspecific hp (.of_isValidPos hp hvalid) s hs))
      next res hres => exact .inl ⟨res, inSpecificSlot_ne_ok hres, rfl⟩
    · exact .inl ⟨_, InventoryResult.noConfusion, rfl⟩
  next hp => exact .inr (hstart (Bool.eq_false_iff.mpr hp))

end Store

/-- **An answer of `CanStoreItem`**: it is refused at once, or the search settles. What is kept may
depend on how many of the stack are stored, which are all of them where the answer is
`EQUIP_ERR_OK`. -/
theorem Kept.canStoreItemFrom {I : ℕ → Search → Prop} {dest' : List ItemPosCount}
    (hI : ∀ n, Kept T v item isStorePos p (I n) O) (hp : isContainer p.1 = true)
    (hstart : isSpecific p = false → ∀ n, I n ⟨dest, n⟩ ∧ O ⟨dest, n⟩)
    (hspecific : isSpecific p = true → v.HasPlace T p → ∀ n s,
      v.canStoreItemInSpecificSlot T item p swap ⟨dest, n⟩ = .ok s → I n s)
    (h : v.canStoreItemFrom T item p swap dest = (res, dest')) :
    (res ≠ .ok ∧ dest' = dest) ∨
      ∃ n s, I n s ∧ s.dest = dest' ∧ (res = .ok → s.count = 0 ∧ n = item.count) := by
  unfold Player.canStoreItemFrom at h
  split at h
  · cases h
    exact .inl ⟨InventoryResult.noConfusion, rfl⟩
  · dsimp only at h
    split at h
    · next hmany =>
      cases h
      simp only [Bool.and_eq_true, decide_eq_true_eq] at hmany
      exact .inl ⟨hmany.1, rfl⟩
    · generalize (v.canTakeMoreSimilarItems T item item.count).2 = noSimilar at h
      set n := if noSimilar ≤ item.count then item.count - noSimilar
        else item.count + 2 ^ 32 - noSimilar with hn
      rcases (hI n).storeSpecific (fun hp => hstart hp n)
        (fun hp hat => hspecific hp hat n) with ⟨res', hres', hrefused⟩ | hsettles
      · rw [hrefused] at h
        cases h
        exact .inl ⟨hres', rfl⟩
      · have hall := hsettles.bind fun s h ho =>
          ((hI n).storeInBag hp h ho).bind fun s h ho => (hI n).storeSearches h ho
        obtain ⟨s, hs, hdest, hok⟩ := hall.answer InventoryResult.noConfusion h
        refine .inr ⟨n, s, hs, hdest, fun hres => ⟨(hok hres).1, ?_⟩⟩
        rw [hn, (hok hres).2, if_pos (Nat.zero_le _), Nat.sub_zero]

/-! ## Banking -/

section Bank

variable {R : Rules} (hI : Kept T v item isBankStorePos p I O)

include hI

theorem Kept.bankSlots (merge : Bool) (h : I s) (ho : O s) (skip : Pos) :
    I (v.canStoreItemInInventorySlots T item 39 67 merge skip s) := by
  apply hI.slots skip (by decide) ?_ ?_ (.inr (by decide)) h ho
  · intro slot _ hlt
    exact .inl (by omega)
  · intro slot hle hlt
    simp [isBankStorePos, isBankSlot, hle, hlt]

theorem Kept.bankBag (hbag : bag ∈ slotsFrom 67 74) (merge special : Bool) (h : I s) (ho : O s)
    (skip : Pos) : I (v.searchBag T item bag merge special skip s) := by
  have hslot : isBankBagSlot bag = true := by
    simpa [isBankBagSlot] using (mem_slotsFrom (by decide)).mp hbag
  apply hI.searchBag ?_ ?_ h ho
  · simp [isBagSlot, hslot]
  · intro slot
    simp [isBankStorePos, hslot]

theorem Kept.bankInBag (hp : isContainer p.1 = true) (h : I s) (ho : O s) :
    Settles I O 0 (v.bankInBag T item p s) := by
  unfold Player.bankInBag
  dsimp only
  split
  · exact ⟨h, ho⟩
  · next hnull =>
    split
    · exact settles_refusal h InventoryResult.noConfusion
    · by_cases hown : p.1 = inventorySlotBag0
      · simp only [if_pos hown]
        split
        · apply (hI.leave (hI.bankSlots true h ho p)).bind
          intro s h ho
          exact hI.leave (hI.bankSlots false h ho p)
        · exact hI.leave (hI.bankSlots false h ho p)
      · have hbag : isBagSlot p.1 = true := by
          simpa [Inventory.isContainer, hnull, hown] using hp
        split
        · apply (hI.searchOneBag hbag rfl h ho).bind
          intro s h ho
          exact hI.searchOneBag hbag rfl h ho
        · exact hI.searchOneBag hbag rfl h ho

theorem Kept.bankSearches (h : I s) (ho : O s) :
    Settles I O 0 ((v.bankSearches T item p).foldlM (fun s f => Player.leave 0 (f s)) s) := by
  have hbags : ∀ merge special : Bool, ∀ f ∈ (slotsFrom 67 74).map fun bag =>
      v.searchBag T item bag merge special p, ∀ s, I s → O s → I (f s) := by
    intro merge special f hf s h ho
    obtain ⟨bag, hbag, rfl⟩ := List.mem_map.mp hf
    exact hI.bankBag hbag merge special h ho p
  apply hI.foldlM _ h ho
  intro f hf s h ho
  simp only [Player.bankSearches, List.mem_append, List.mem_ite_nil_right, List.mem_singleton] at hf
  rcases hf with ((⟨-, (rfl | ⟨-, hf⟩) | hf⟩ | ⟨-, hf⟩) | rfl) | hf
  · exact hI.bankSlots true h ho p
  · exact hbags true false f hf s h ho
  · exact hbags true true f hf s h ho
  · exact hbags false false f hf s h ho
  · exact hI.bankSlots false h ho p
  · exact hbags false true f hf s h ho

theorem Kept.bankSpecific {n : ℕ} (hstart : isSpecific p = false → I ⟨dest, n⟩ ∧ O ⟨dest, n⟩)
    (hspecific : isSpecific p = true → v.checkBankSlot T R item p.2 = .ok → ∀ s,
      v.canStoreItemInSpecificSlot T item p swap ⟨dest, n⟩ = .ok s → I s) :
    (∃ res, res ≠ .ok ∧ v.bankSpecific T R item p swap ⟨dest, n⟩ = .error (res, dest)) ∨
      Settles I O 0 (v.bankSpecific T R item p swap ⟨dest, n⟩) := by
  unfold Player.bankSpecific
  split
  next hp =>
    split
    next hres => exact .inl ⟨_, hres, rfl⟩
    next hok =>
      split
      next s hs => exact .inr (hI.leave (hspecific hp (not_not.mp hok) s hs))
      next res hres => exact .inl ⟨res, inSpecificSlot_ne_ok hres, rfl⟩
  next hp => exact .inr (hstart (Bool.eq_false_iff.mpr hp))

/-- **An answer of `CanBankItem`**. -/
theorem Kept.canBankItemFrom {dest' : List ItemPosCount} (hp : isContainer p.1 = true)
    (hstart : isSpecific p = false → I ⟨dest, item.count⟩ ∧ O ⟨dest, item.count⟩)
    (hspecific : isSpecific p = true → v.checkBankSlot T R item p.2 = .ok → ∀ s,
      v.canStoreItemInSpecificSlot T item p swap ⟨dest, item.count⟩ = .ok s → I s)
    (h : v.canBankItemFrom T R item p swap dest = (res, dest')) :
    (res ≠ .ok ∧ dest' = dest) ∨ ∃ s, I s ∧ s.dest = dest' ∧ (res = .ok → s.count = 0) := by
  unfold Player.canBankItemFrom at h
  split at h
  · cases h
    exact .inl ⟨InventoryResult.noConfusion, rfl⟩
  · split at h
    · next hmany =>
      cases h
      exact .inl ⟨hmany, rfl⟩
    · rcases hI.bankSpecific hstart hspecific with ⟨res', hres', hrefused⟩ | hsettles
      · rw [hrefused] at h
        cases h
        exact .inl ⟨hres', rfl⟩
      · have hall := hsettles.bind fun s h ho =>
          (hI.bankInBag hp h ho).bind fun s h ho => hI.bankSearches h ho
        obtain ⟨s, hs, hdest, hok⟩ := hall.answer InventoryResult.noConfusion h
        exact .inr ⟨s, hs, hdest, fun hres => (hok hres).1⟩

end Bank

end Player

end Sunstrider.Inventory
