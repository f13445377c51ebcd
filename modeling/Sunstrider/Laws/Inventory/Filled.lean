import Sunstrider.Inventory.Exchange
import Sunstrider.Laws.Inventory.Counting
import Sunstrider.Laws.Inventory.Plans
import Sunstrider.Lib.Filling

/-!
# A search fills rooms

Each search of `_CanStoreItem` comes to some rooms (`visits`, `bagVisits`), and what it has found is what
these take in their order (`Filled`). A search that is at its end stays so, whatever rooms come after
(`Filled.full`).
-/

namespace Sunstrider.Inventory

open Sunstrider.Lib (Ends fill capacity fill_append survey survey_nil survey_cons survey_append
  prefix_of_survey enroll enroll_of_mem enroll_of_notMem)

variable {T : Templates}

/-- What a search has found for `n` of an item is what the rooms take in their order. -/
structure Filled (rooms : List (Pos × ℕ)) (n : ℕ) (s : Search) : Prop where
  dest : s.dest = (fill rooms n).map part
  count : s.count = n - capacity rooms

variable {rooms found : List (Pos × ℕ)} {n : ℕ} {s : Search}

theorem filled_nil (n : ℕ) : Filled [] n ⟨[], n⟩ := ⟨rfl, rfl⟩

/-- While something is left, the places that are found are those of the rooms. -/
theorem Filled.contains_iff (h : Filled rooms n s) (hopen : s.count ≠ 0) (p : Pos) :
    s.contains p = true ↔ p ∈ rooms.map Prod.fst := by
  have hlt : capacity rooms < n := by
    have hcount := h.count
    omega
  unfold Search.contains
  rw [h.dest, Lib.fill_of_lt hlt, ← map_part_pos]
  simp

theorem Filled.take (h : Filled rooms n s) (hopen : s.count ≠ 0) (p : Pos) (r : ℕ) :
    Filled (enroll rooms (p, r)) n (s.take p r) := by
  unfold Search.take
  by_cases hmem : p ∈ rooms.map Prod.fst
  · rw [if_pos ((h.contains_iff hopen p).mpr hmem), enroll_of_mem hmem]
    exact h
  · have hcount := h.count
    rw [if_neg fun hp => hmem ((h.contains_iff hopen p).mp hp), enroll_of_notMem hmem]
    constructor
    · show s.dest ++ _ = _
      rw [fill_append, List.map_append, h.dest, ← hcount, Lib.fill_cons _ _ hopen]
      rfl
    · show s.count - _ = _
      rw [Lib.capacity_append, hcount]
      simp only [Lib.capacity_cons, Lib.capacity_nil]
      omega

theorem Filled.full (h : Filled rooms n s) (hfull : s.count = 0) (found : List (Pos × ℕ)) :
    Filled (survey rooms found) n s := by
  obtain ⟨more, hmore⟩ := prefix_of_survey rooms found
  have hcount := h.count
  rw [← hmore]
  constructor
  · rw [fill_append, ← hcount, hfull, Lib.fill_zero, List.append_nil]
    exact h.dest
  · rw [Lib.capacity_append]
    omega

namespace Player

variable (T) (v : Player) (item : Item)

/-! ## Rooms of the searches -/

/-- The rooms of positions that are searched for stacks, or for free slots. -/
def visits (merge : Bool) (ps : List Pos) : List (Pos × ℕ) :=
  ps.filterMap fun q => (v.space T item merge q).map fun r => (q, r)

/-- A bag that is there takes the item. -/
def bagTakes (bag : Fin 256) : Bool :=
  (v.getItemByPos T (inventorySlotBag0, bag)).any fun b => itemCanGoIntoBag (T item.entry) (T b.entry)

def isPlainBag (bag : Fin 256) : Bool :=
  (v.getItemByPos T (inventorySlotBag0, bag)).any fun b => (T b.entry).isPlainContainer

/-- The rooms in a bag, but for one slot. -/
def bagVisits (merge : Bool) (skipSlot : Fin 256) (bag : Fin 256) : List (Pos × ℕ) :=
  v.visits T item merge ((v.bagPositions T [bag]).filter fun q => q.2 ≠ skipSlot)

/-- The rooms in slots of the player himself, but for one. -/
def slotVisits (first last : ℕ) (merge : Bool) (skip : Pos) : List (Pos × ℕ) :=
  v.visits T item merge ((ownPositions (slotsFrom first last)).filter fun q => q ≠ skip)

variable {T v item}

variable {merge : Bool}

/-- **The loop over positions** comes to their rooms. -/
theorem filled_searchPositions (ps : List Pos) (h : Filled rooms n s) (hopen : s.count ≠ 0) :
    Filled (survey rooms (v.visits T item merge ps)) n (v.searchPositions T item merge ps s) := by
  induction ps generalizing rooms s with
  | nil => exact h
  | cons p ps ih =>
    unfold searchPositions visits
    cases hspace : v.space T item merge p with
    | none =>
      rw [List.filterMap_cons_none (by rw [hspace]; rfl)]
      exact ih h hopen
    | some r =>
      have hvisits : (p :: ps).filterMap (fun q => (v.space T item merge q).map fun r => (q, r)) =
          (p, r) :: v.visits T item merge ps := List.filterMap_cons_some (by rw [hspace]; rfl)
      have htake := h.take hopen p r
      rw [hvisits, survey_cons]
      by_cases hcontains : s.contains p = true
      · have hsame : s.take p r = s := if_pos hcontains
        simp only [hcontains, if_true]
        rw [hsame] at htake
        exact ih htake hopen
      · simp only [hcontains, Bool.false_eq_true, if_false]
        split
        next hfull => exact htake.full hfull _
        next hleft => exact ih htake hleft

theorem filled_slots {first last : ℕ} {skip : Pos} (h : Filled rooms n s) (hopen : s.count ≠ 0) :
    Filled (survey rooms (v.slotVisits T item first last merge skip)) n
      (v.canStoreItemInInventorySlots T item first last merge skip s) :=
  filled_searchPositions _ h hopen

variable {bag : Fin 256}

theorem bagPositions_singleton {b : Item} (h : v.getItemByPos T (inventorySlotBag0, bag) = some b) :
    v.bagPositions T [bag] = (slotsFrom 0 (b.getBagSize T)).map fun slot => (bag, slot) := by
  unfold bagPositions
  rw [List.flatMap_singleton, h]

theorem canStoreItemInBag_eq (bag : Fin 256) (merge nonSpecialized : Bool) (skip : Pos) (s : Search) :
    v.canStoreItemInBag T item bag merge nonSpecialized skip s =
      if bag ≠ skip.1 ∧ v.bagTakes T item bag = true ∧ v.isPlainBag T bag = nonSpecialized then
        .ok (v.searchPositions T item merge
          ((v.bagPositions T [bag]).filter fun q => q.2 ≠ skip.2) s)
      else .error .itemDoesntGoIntoBag := by
  unfold canStoreItemInBag bagTakes isPlainBag
  by_cases hskip : bag = skip.1
  · rw [if_pos hskip, if_neg fun h => h.1 hskip]
  · rw [if_neg hskip]
    cases hbag : v.getItemByPos T (inventorySlotBag0, bag) with
    | none => simp
    | some b =>
      rw [bagPositions_singleton hbag, List.filter_map]
      simp only [Option.any_some]
      by_cases hkind : nonSpecialized = (T b.entry).isPlainContainer
      · rw [if_neg (not_not.mpr hkind)]
        by_cases htakes : itemCanGoIntoBag (T item.entry) (T b.entry) = true
        · have hinner : ¬ (!itemCanGoIntoBag (T item.entry) (T b.entry)) = true := by simp [htakes]
          rw [if_neg hinner, if_pos ⟨hskip, htakes, hkind.symm⟩]
          rfl
        · have hinner : (!itemCanGoIntoBag (T item.entry) (T b.entry)) = true := by simp [htakes]
          rw [if_pos hinner, if_neg fun h => htakes h.2.1]
      · rw [if_pos hkind, if_neg fun h => hkind h.2.2.symm]

/-- The rooms in the bags of a kind, but for one bag and one slot of each. -/
def kindVisits (T : Templates) (v : Player) (item : Item) (merge nonSpecialized : Bool) (skip : Pos)
    (bag : Fin 256) : List (Pos × ℕ) :=
  if bag ≠ skip.1 ∧ v.bagTakes T item bag = true ∧ v.isPlainBag T bag = nonSpecialized then
    v.bagVisits T item merge skip.2 bag
  else []

theorem filled_searchBag {nonSpecialized : Bool} {skip : Pos} (h : Filled rooms n s)
    (hopen : s.count ≠ 0) :
    Filled (survey rooms (v.kindVisits T item merge nonSpecialized skip bag)) n
      (v.searchBag T item bag merge nonSpecialized skip s) := by
  unfold searchBag kindVisits
  rw [canStoreItemInBag_eq]
  by_cases hbag : bag ≠ skip.1 ∧ v.bagTakes T item bag = true ∧ v.isPlainBag T bag = nonSpecialized
  · rw [if_pos hbag, if_pos hbag]
    exact filled_searchPositions _ h hopen
  · rw [if_neg hbag, if_neg hbag]
    exact h

/-! ## Answers -/

/-- What is returned when all of a stack has a position. -/
def closing (noSimilar : UInt32) (s : Search) : StoreAnswer :=
  ⟨if noSimilar = 0 then .ok else .cantCarryMoreOfThis, s.dest, noSimilar⟩

/-- A search of rooms that goes on, or has found positions for all. -/
def Settled (rooms : List (Pos × ℕ)) (n : ℕ) (noSimilar : UInt32) :
    Except StoreAnswer Search → Prop :=
  Ends (fun s => Filled rooms n s ∧ s.count ≠ 0)
    fun a => ∃ s, Filled rooms n s ∧ s.count = 0 ∧ a = closing noSimilar s

variable {noSimilar : UInt32}

theorem settled_settle (h : Filled rooms n s) : Settled rooms n noSimilar (settle noSimilar s) := by
  unfold settle
  split
  next hfull =>
    refine ⟨s, h, hfull, ?_⟩
    unfold closing refuse
    split
    · next hzero => rw [hzero]
    · rw [hfull]
      exact congrArg _ (UInt32.zero_add noSimilar)
  next hopen => exact ⟨h, hopen⟩

theorem Settled.bind {x : Except StoreAnswer Search} {f : Search → Except StoreAnswer Search}
    (h : Settled rooms n noSimilar x)
    (hf : ∀ s, Filled rooms n s → s.count ≠ 0 → Settled (survey rooms found) n noSimilar (f s)) :
    Settled (survey rooms found) n noSimilar (x >>= f) := by
  cases x with
  | ok s => exact hf s h.1 h.2
  | error a =>
    obtain ⟨s, hs, hfull, ha⟩ := h
    exact ⟨s, hs.full hfull found, hfull, ha⟩

theorem settled_foldlM {searches : List (Search → Search)} {founds : List (List (Pos × ℕ))}
    (hsearches : List.Forall₂ (fun f found => ∀ rooms s, Filled rooms n s → s.count ≠ 0 →
      Filled (survey rooms found) n (f s)) searches founds)
    (h : Filled rooms n s) (hopen : s.count ≠ 0) :
    Settled (survey rooms founds.flatten) n noSimilar
      (searches.foldlM (fun s f => settle noSimilar (f s)) s) := by
  induction hsearches generalizing rooms s with
  | nil => exact ⟨h, hopen⟩
  | cons hf _ ih =>
    rw [List.foldlM_cons, List.flatten_cons, survey_append]
    exact (settled_settle (hf rooms s h hopen)).bind fun s hs hopen => ih hs hopen

variable (T v item)

/-- The rooms in the bag that is asked for. -/
def askedVisits (p : Pos) : List (Pos × ℕ) :=
  let proto := T item.entry
  if p.1 = nullBag then []
  else if p.1 = inventorySlotBag0 then
    (if 1 < proto.stackable then
      v.slotVisits T item 86 118 true p ++ v.slotVisits T item 23 39 true p else [])
      ++ ((if proto.isKey then v.slotVisits T item 86 118 false p else [])
        ++ v.slotVisits T item 23 39 false p)
  else
    (if 1 < proto.stackable then v.bagVisits T item true p.2 p.1 else [])
      ++ v.bagVisits T item false p.2 p.1

/-- The rooms in all the inventory, one list for each of the searches. -/
def storeVisits (p : Pos) : List (List (Pos × ℕ)) :=
  let proto := T item.entry
  let slots (first last : ℕ) (merge : Bool) : List (Pos × ℕ) := v.slotVisits T item first last merge p
  let bags (merge nonSpecialized : Bool) : List (List (Pos × ℕ)) :=
    (slotsFrom 19 23).map fun bag => v.kindVisits T item merge nonSpecialized p bag
  (if 1 < proto.stackable then
    [slots 86 118 true, slots 23 39 true]
      ++ (if proto.bagFamily ≠ 0 then bags true false else [])
      ++ bags true true
  else [])
    ++ (if proto.bagFamily ≠ 0 then
      (if proto.isKey then [slots 86 118 false] else []) ++ bags false false
    else [])
    ++ [slots 23 39 false]
    ++ bags false true

variable {T v item}

variable {p : Pos}

theorem settled_storeSearches (h : Filled rooms n s) (hopen : s.count ≠ 0) :
    Settled (survey rooms (v.storeVisits T item p).flatten) n noSimilar
      ((v.storeSearches T item p).foldlM (fun s f => settle noSimilar (f s)) s) := by
  refine settled_foldlM ?_ h hopen
  have hslots : ∀ first last merge,
      List.Forall₂ (fun (f : Search → Search) found => ∀ rooms s, Filled rooms n s → s.count ≠ 0 →
        Filled (survey rooms found) n (f s))
        [v.canStoreItemInInventorySlots T item first last merge p]
        [v.slotVisits T item first last merge p] := by
    intro first last merge
    exact .cons (fun _ _ h hopen => filled_slots h hopen) .nil
  have hbags : ∀ merge nonSpecialized,
      List.Forall₂ (fun (f : Search → Search) found => ∀ rooms s, Filled rooms n s → s.count ≠ 0 →
        Filled (survey rooms found) n (f s))
        ((slotsFrom 19 23).map fun bag => v.searchBag T item bag merge nonSpecialized p)
        ((slotsFrom 19 23).map fun bag => v.kindVisits T item merge nonSpecialized p bag) := by
    intro merge nonSpecialized
    rw [List.forall₂_map_left_iff, List.forall₂_map_right_iff]
    exact List.forall₂_same.mpr fun bag _ _ _ h hopen => filled_searchBag h hopen
  unfold storeSearches storeVisits
  refine List.rel_append (List.rel_append (List.rel_append ?_ ?_) (hslots 23 39 false))
    (hbags false true)
  · split
    · refine List.rel_append (List.rel_append ?_ ?_) (hbags true true)
      · exact List.rel_append (hslots 86 118 true) (hslots 23 39 true)
      · split
        · exact hbags true false
        · exact .nil
    · exact .nil
  · split
    · refine List.rel_append ?_ (hbags false false)
      split
      · exact hslots 86 118 false
      · exact .nil
    · exact .nil

theorem settleOneBag_eq (hbag : bag ≠ nullBag) (merge : Bool) (slot : Fin 256) (s : Search) :
    v.settleOneBag T item bag merge slot noSimilar s =
      if v.bagTakes T item bag = true then
        settle noSimilar (v.searchPositions T item merge
          ((v.bagPositions T [bag]).filter fun q => q.2 ≠ slot) s)
      else .error (refuse noSimilar .itemDoesntGoIntoBag s) := by
  unfold settleOneBag
  rw [canStoreItemInBag_eq, canStoreItemInBag_eq]
  cases v.bagTakes T item bag with
  | false => simp
  | true =>
    cases v.isPlainBag T bag with
    | false => simp [hbag]
    | true => simp [hbag]

theorem settled_settleInBag (h : Filled rooms n s) (hopen : s.count ≠ 0)
    (hp : p.1 = nullBag ∨ p.1 = inventorySlotBag0 ∨ v.bagTakes T item p.1 = true) :
    Settled (survey rooms (v.askedVisits T item p)) n noSimilar
      (v.settleInBag T item p noSimilar s) := by
  have hslots : ∀ first last merge rooms s, Filled rooms n s → s.count ≠ 0 →
      Settled (survey rooms (v.slotVisits T item first last merge p)) n noSimilar
        (settle noSimilar (v.canStoreItemInInventorySlots T item first last merge p s)) :=
    fun _ _ _ _ _ h hopen => settled_settle (filled_slots h hopen)
  unfold settleInBag askedVisits
  by_cases hnull : p.1 = nullBag
  · rw [if_pos hnull, if_pos hnull]
    exact ⟨h, hopen⟩
  · rw [if_neg hnull, if_neg hnull]
    by_cases hown : p.1 = inventorySlotBag0
    · simp only [if_pos hown]
      rw [survey_append]
      have hfree : ∀ rooms s, Filled rooms n s → s.count ≠ 0 → Settled (survey rooms
          ((if (T item.entry).isKey then v.slotVisits T item 86 118 false p else [])
            ++ v.slotVisits T item 23 39 false p)) n noSimilar (do
          let s ←
            if (T item.entry).isKey then
              settle noSimilar (v.canStoreItemInInventorySlots T item 86 118 false p s)
            else pure s
          settle noSimilar (v.canStoreItemInInventorySlots T item 23 39 false p s)) := by
        intro rooms s h hopen
        rw [survey_append]
        split
        · exact (hslots 86 118 false _ s h hopen).bind fun s h hopen => hslots 23 39 false _ s h hopen
        · exact hslots 23 39 false _ s h hopen
      split
      · refine Settled.bind ?_ fun s h hopen => hfree _ s h hopen
        rw [survey_append]
        exact (hslots 86 118 true rooms s h hopen).bind fun s h hopen => hslots 23 39 true _ s h hopen
      · exact hfree rooms s h hopen
    · have htakes : v.bagTakes T item p.1 = true := (hp.resolve_left hnull).resolve_left hown
      have hbag : ∀ merge rooms s, Filled rooms n s → s.count ≠ 0 →
          Settled (survey rooms (v.bagVisits T item merge p.2 p.1)) n noSimilar
            (v.settleOneBag T item p.1 merge p.2 noSimilar s) := by
        intro merge rooms s h hopen
        rw [settleOneBag_eq hnull, if_pos htakes]
        exact settled_settle (filled_searchPositions _ h hopen)
      simp only [if_neg hown]
      rw [survey_append]
      split
      · exact (hbag true rooms s h hopen).bind fun s h hopen => hbag false _ s h hopen
      · exact hbag false rooms s h hopen

theorem settleInBag_refused (hnull : p.1 ≠ nullBag) (hown : p.1 ≠ inventorySlotBag0)
    (hrefuses : v.bagTakes T item p.1 = false) (s : Search) :
    v.settleInBag T item p noSimilar s = .error (refuse noSimilar .itemDoesntGoIntoBag s) := by
  have hbag : ∀ merge, v.settleOneBag T item p.1 merge p.2 noSimilar s =
      .error (refuse noSimilar .itemDoesntGoIntoBag s) := by
    intro merge
    rw [settleOneBag_eq hnull, hrefuses]
    rfl
  unfold settleInBag
  dsimp only
  rw [if_neg hnull]
  split
  · rw [hbag]
    rfl
  · exact hbag false

end Player

end Sunstrider.Inventory
