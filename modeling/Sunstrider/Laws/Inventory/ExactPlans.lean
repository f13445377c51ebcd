import Mathlib.Algebra.Order.Group.Nat
import Sunstrider.Laws.Inventory.StoreRooms

/-!
# When `CanStoreItem` plans exactly

What the answer of `_CanStoreItem` should be is `PlansExactly`: the positions are different, each takes a
part that it has room for, the parts and what there is no space for are the whole, and the inventory is
full only where nothing is left of its room. It is so exactly when `Plannable` holds of the rooms that
the search comes to (`canStoreItemCount_exact_iff`). Without the count, the answer is that of the form
which does not know of it (`canStoreItemCount_answer`).
-/

namespace Sunstrider.Inventory

open Sunstrider.Lib (fill capacity mapError_bind mapError_foldlM)

variable {T : Templates}

namespace Player

variable {v : Player} {item : Item} {p q : Pos} {swap : Bool} {entry n : ℕ} {pItem : Option Item}
  {count noSimilar : UInt32} {rooms : List (Pos × ℕ)} {view : Pos → Option Stack}

/-! ## What is asked of an answer -/

/-- What is in the way of an item: what lies in the storage, but for the item itself, and but for what
lies at the position from which it is swapped away. -/
def inTheWay (T : Templates) (v : Player) (pItem : Option Item) (p : Pos) (swap : Bool) :
    Pos → Option Stack :=
  let view : Pos → Option Stack :=
    match pItem with
    | none => v.stackAt T
    | some item => v.seen T item
  if isSpecific p && swap then Function.update view p none else view

/-- The answer plans exactly. -/
structure PlansExactly (T : Templates) (v : Player) (item : Item) (view : Pos → Option Stack) (p : Pos)
    (count : UInt32) (a : StoreAnswer) : Prop where
  apart : (a.dest.map ItemPosCount.pos).Nodup
  amounts : ∀ c ∈ a.dest, 0 < c.count.toNat ∧
    ∃ r, HasRoom T v item view c.pos r ∧ c.count.toNat ≤ r
  sum : (a.dest.map fun c => c.count.toNat).sum + a.noSpaceCount.toNat = count.toNat
  ok_iff : a.res = .ok ↔ a.noSpaceCount = 0
  full : a.res = .inventoryFull →
    p = (nullBag, nullSlot) ∨ p.1 = inventorySlotBag0 ∧ isInventorySlot p.2 = true →
    ∀ q r, HasRoom T v item view q r → 0 < r → ∃ c ∈ a.dest, c.pos = q ∧ c.count.toNat = r

/-- When an answer plans exactly, in terms of the rooms that the search comes to with `n` to store. -/
structure Plannable (T : Templates) (v : Player) (item : Item) (view : Pos → Option Stack) (p : Pos)
    (rooms : List (Pos × ℕ)) (n : ℕ) (noSimilar count : UInt32) : Prop where
  /-- A room that the search comes to takes something, and less than 256. -/
  reached : ∀ before c after, rooms = before ++ c :: after → capacity before < n →
    0 < min c.2 (n - capacity before) ∧ min c.2 (n - capacity before) < 256
  /-- There are not more of the item than the player may carry, or too few rooms for what is asked. -/
  carried : noSimilar ≤ count ∨ capacity rooms < count.toNat
  /-- Where a slot of the backpack is asked for, the slots with its number in the bags are passed over:
  the other rooms are enough, or there is no room in these slots. -/
  unskipped : p.1 = inventorySlotBag0 → isInventorySlot p.2 = true → n ≤ capacity rooms ∨
    ∀ bag r, isInventoryBagSlot bag = true → HasRoom T v item view (bag, p.2) r → r = 0

/-- A new item is none of those that lie somewhere. -/
theorem seen_sought (entry : ℕ) (hold : ∀ a, v.stackAt T q = some a → a.guid < v.nextGuid) :
    v.seen T (v.sought T entry none) q = v.stackAt T q := by
  show ((v.getItemByPos T q).filter _).map Item.stack = v.stackAt T q
  unfold stackAt
  cases hat : v.getItemByPos T q with
  | none => rfl
  | some dest =>
    have hne : dest.guid ≠ (v.sought T entry none).guid :=
      Nat.ne_of_lt (hold dest.stack (stackAt_eq_some hat))
    rw [Option.filter_some, if_pos (decide_eq_true hne)]

theorem inTheWay_eq_cleared (hv : v.Orderly T) (entry : ℕ) (p : Pos) (swap : Bool) :
    v.inTheWay T pItem p swap = cleared T v (v.sought T entry pItem) p swap := by
  have hview : (match pItem with
      | none => v.stackAt T
      | some item => v.seen T item) = v.seen T (v.sought T entry pItem) := by
    cases pItem with
    | some item => rfl
    | none =>
      ext1 q
      exact (seen_sought entry (hv.wellFormed.placed.old q)).symm
  unfold inTheWay cleared
  rw [hview]

/-! ## The answer in terms of the rooms -/

theorem map_part_count (plan : List (Pos × ℕ)) :
    ((plan.map part).map fun c => c.count.toNat) = plan.map fun c => c.2 % 256 := by
  simp [Function.comp_def, part_count]

theorem sum_mod_le (plan : List (Pos × ℕ)) : (plan.map fun c => c.2 % 256).sum ≤ capacity plan :=
  List.sum_le_sum fun c _ => Nat.mod_le c.2 256

/-- No amount is cut down where their sum is not. -/
theorem lt_of_sum_mod {plan : List (Pos × ℕ)}
    (h : (plan.map fun c => c.2 % 256).sum = capacity plan) : ∀ c ∈ plan, c.2 < 256 := by
  induction plan with
  | nil =>
    intro c hc
    cases hc
  | cons d plan ih =>
    rw [List.map_cons, List.sum_cons, Lib.capacity_cons] at h
    have hle := sum_mod_le plan
    intro c hc
    rcases List.mem_cons.mp hc with rfl | hc
    · have heq : c.2 % 256 = c.2 := by omega
      rw [← heq]
      exact Nat.mod_lt _ (by decide)
    · exact ih (by omega) c hc

theorem sum_mod_of_lt {plan : List (Pos × ℕ)} (h : ∀ c ∈ plan, c.2 < 256) :
    (plan.map fun c => c.2 % 256).sum = capacity plan := by
  unfold Lib.capacity
  rw [List.map_congr_left fun c hc => Nat.mod_eq_of_lt (h c hc)]

/-- The answer of a search that has come to all the rooms. -/
def answerOf (noSimilar : UInt32) (s : Search) : StoreAnswer :=
  if s.count = 0 then closing noSimilar s else refuse noSimilar .inventoryFull s

theorem answerOf_dest (noSimilar : UInt32) (s : Search) : (answerOf noSimilar s).dest = s.dest := by
  unfold answerOf
  split
  · rfl
  · rfl

theorem answerOf_cases (noSimilar : UInt32) {s : Search} (h : Filled rooms n s) :
    n ≤ capacity rooms ∧ answerOf noSimilar s = closing noSimilar s ∨
      capacity rooms < n ∧ answerOf noSimilar s =
        ⟨.inventoryFull, s.dest, UInt32.ofNat (n - capacity rooms) + noSimilar⟩ := by
  have hcount := h.count
  unfold answerOf
  by_cases hfull : s.count = 0
  · rw [if_pos hfull]
    exact .inl ⟨by omega, rfl⟩
  · rw [if_neg hfull, ← hcount]
    exact .inr ⟨by omega, rfl⟩

theorem uint32_eq_zero_iff (w : UInt32) : w = 0 ↔ w.toNat = 0 := by
  rw [← UInt32.toNat_inj]
  rfl

section Answer

variable {s : Search} (hs : Filled rooms n s) (hn : n = (count - noSimilar).toNat)

include hs hn

theorem answerOf_noSpace : n ≤ capacity rooms ∧ answerOf noSimilar s = closing noSimilar s ∨
    capacity rooms < n ∧ (answerOf noSimilar s).res = .inventoryFull ∧
      (answerOf noSimilar s).noSpaceCount.toNat =
        (n - capacity rooms + noSimilar.toNat) % 2 ^ 32 := by
  have hlt : n < 2 ^ 32 := hn ▸ (count - noSimilar).toNat_lt
  rcases answerOf_cases noSimilar hs with ⟨hle, heq⟩ | ⟨hcap, heq⟩
  · exact .inl ⟨hle, heq⟩
  · refine .inr ⟨hcap, by rw [heq], ?_⟩
    rw [heq]
    show (UInt32.ofNat (n - capacity rooms) + noSimilar).toNat = _
    rw [UInt32.toNat_add, UInt32.toNat_ofNat', Nat.mod_eq_of_lt (by omega : n - capacity rooms < 2 ^ 32)]

/-- **The sum of an answer**: the amounts that are found and what there is no space for are the count,
where there are not too many of the item already, or too few rooms. -/
theorem answerOf_sum (hcarried : noSimilar ≤ count ∨ capacity rooms < count.toNat) :
    (capacity (fill rooms n)) + (answerOf noSimilar s).noSpaceCount.toNat = count.toNat ∧
      ((answerOf noSimilar s).res = .ok ↔ (answerOf noSimilar s).noSpaceCount = 0) := by
  have hcount := count.toNat_lt
  have hsimilar := noSimilar.toNat_lt
  rw [UInt32.le_iff_toNat_le] at hcarried
  rw [Lib.sum_fill, uint32_eq_zero_iff]
  have hnoSpace := answerOf_noSpace hs hn
  rw [UInt32.toNat_sub] at hn
  rcases hnoSpace with ⟨hle, heq⟩ | ⟨hcap, hres, hspace⟩
  · rw [heq]
    unfold closing
    dsimp only
    refine ⟨by omega, ?_⟩
    by_cases hzero : noSimilar = 0
    · simp [hzero]
    · have hpos := mt (uint32_eq_zero_iff noSimilar).mpr hzero
      simp [hzero, hpos]
  · rw [hspace, hres]
    refine ⟨by omega, ?_⟩
    have hpos : (n - capacity rooms + noSimilar.toNat) % 2 ^ 32 ≠ 0 := by omega
    exact ⟨fun h => (nomatch h), fun h => absurd h hpos⟩

/-- Where the sum is right, there were not too many of the item, or too few rooms. -/
theorem carried_of_answerOf {found : ℕ} (hfound : found ≤ capacity (fill rooms n))
    (hsum : found + (answerOf noSimilar s).noSpaceCount.toNat = count.toNat)
    (hok : (answerOf noSimilar s).res = .ok ↔ (answerOf noSimilar s).noSpaceCount = 0) :
    noSimilar ≤ count ∨ capacity rooms < count.toNat := by
  have hcount := count.toNat_lt
  have hsimilar := noSimilar.toNat_lt
  rw [Lib.sum_fill] at hfound
  rw [uint32_eq_zero_iff] at hok
  rw [UInt32.le_iff_toNat_le]
  have hnoSpace := answerOf_noSpace hs hn
  rw [UInt32.toNat_sub] at hn
  rcases hnoSpace with ⟨hle, heq⟩ | ⟨hcap, hres, hspace⟩
  · rw [heq] at hsum
    change found + noSimilar.toNat = _ at hsum
    omega
  · rw [hspace] at hsum hok
    rw [hres] at hok
    have hne : (n - capacity rooms + noSimilar.toNat) % 2 ^ 32 ≠ 0 := by
      intro hzero
      have hbad := hok.mpr hzero
      cases hbad
    omega

end Answer

/-! ## Exact plans -/

theorem settled_answer {x : Except StoreAnswer Search} :
    Settled rooms n noSimilar x → ∃ s, Filled rooms n s ∧
      (match x with
        | .ok s => refuse noSimilar .inventoryFull s
        | .error a => a) = answerOf noSimilar s := by
  intro h
  cases x with
  | ok s => exact ⟨s, h.1, (if_neg h.2).symm⟩
  | error a =>
    obtain ⟨s, hs, hfull, rfl⟩ := h
    exact ⟨s, hs, (if_pos hfull).symm⟩

/-- **When an answer plans exactly.** -/
theorem answerOf_exact_iff {s : Search} (hv : v.Orderly T) (htarget : IsStoreTarget T v p)
    (hno : ¬ Refused T v item p swap) (hs : Filled (v.storeRooms T item p swap) n s)
    (hn : n = (count - noSimilar).toNat) :
    PlansExactly T v item (cleared T v item p swap) p count (answerOf noSimilar s) ↔
      Plannable T v item (cleared T v item p swap) p (v.storeRooms T item p swap) n noSimilar
        count := by
  have hdest : (answerOf noSimilar s).dest = (fill (v.storeRooms T item p swap) n).map part := by
    rw [answerOf_dest, hs.dest]
  have hplaces : ((answerOf noSimilar s).dest.map ItemPosCount.pos) =
      (fill (v.storeRooms T item p swap) n).map Prod.fst := by
    rw [hdest, map_part_pos]
  have hcounts : ((answerOf noSimilar s).dest.map fun c => c.count.toNat) =
      (fill (v.storeRooms T item p swap) n).map fun c => c.2 % 256 := by
    rw [hdest, map_part_count]
  constructor
  · intro h
    have hle := sum_mod_le (fill (v.storeRooms T item p swap) n)
    have hsum := h.sum
    rw [hcounts] at hsum
    have hcarried := carried_of_answerOf hs hn hle hsum h.ok_iff
    have hsum' := (answerOf_sum hs hn hcarried).1
    refine ⟨?_, hcarried, ?_⟩
    · rw [← Lib.forall_fill_iff (fun m => 0 < m ∧ m < 256)]
      intro c hc
      refine ⟨?_, lt_of_sum_mod (by omega) c hc⟩
      have hmem : part c ∈ (answerOf noSimilar s).dest := hdest ▸ List.mem_map_of_mem hc
      have hpos := (h.amounts _ hmem).1
      rw [part_count] at hpos
      exact Nat.pos_of_ne_zero fun hzero => by simp [hzero] at hpos
    · intro hown hslot
      rcases answerOf_noSpace hs hn with ⟨hle, -⟩ | ⟨hcap, hres, -⟩
      · exact .inl hle
      · refine .inr fun bag r hbag hr => ?_
        by_contra hne
        obtain ⟨c, hc, hpos, -⟩ := h.full hres (.inr ⟨hown, hslot⟩) (bag, p.2) r hr
          (Nat.pos_of_ne_zero hne)
        have hmem : (bag, p.2) ∈ (v.storeRooms T item p swap).map Prod.fst := by
          rw [← Lib.fill_of_lt hcap, ← hplaces, ← hpos]
          exact List.mem_map_of_mem hc
        obtain ⟨d, hd, hplace⟩ := List.mem_map.mp hmem
        have hin : d.1.1 ≠ inventorySlotBag0 := by
          rw [hplace]
          exact bagSlot_ne_bag0 (isBagSlot_of_inventory hbag)
        exact storeRooms_skips hown hd hin (by rw [hplace])
  · intro h
    have hsmall := (Lib.forall_fill_iff (fun m => 0 < m ∧ m < 256) _ n).mpr h.reached
    obtain ⟨hsum, hok⟩ := answerOf_sum hs hn h.carried
    refine ⟨?_, ?_, ?_, hok, ?_⟩
    · rw [hplaces]
      exact (nodup_storeRooms v item p swap).sublist (Lib.prefix_of_fill _ n).sublist
    · intro c hc
      rw [hdest] at hc
      obtain ⟨d, hd, rfl⟩ := List.mem_map.mp hc
      obtain ⟨r, hr, hle⟩ := Lib.fill_le hd
      rw [part_count, Nat.mod_eq_of_lt (hsmall d hd).2]
      exact ⟨(hsmall d hd).1, r, storeRooms_hasRoom hv htarget hno hr, hle⟩
    · rw [hcounts, sum_mod_of_lt fun c hc => (hsmall c hc).2]
      exact hsum
    · intro hres hall q r hr hpos
      rcases answerOf_noSpace hs hn with ⟨-, heq⟩ | ⟨hcap, -, -⟩
      · rw [heq] at hres
        unfold closing at hres
        split at hres <;> cases hres
      · have hmem : (q, r) ∈ v.storeRooms T item p swap := by
          apply mem_storeRooms hv htarget hno hall hr
          intro hown hin heq
          have hslot : isInventorySlot p.2 = true := by
            rcases hall with rfl | hall
            · exact absurd hown nullBag_ne_bag0
            · exact hall.2
          have hbag : isInventoryBagSlot q.1 = true := by
            simpa [isStorePos, hin] using hr.accepts.kind
          rcases h.unskipped hown hslot with hle | hnone
          · omega
          · have hzero := hnone q.1 r hbag (heq ▸ hr)
            omega
        rw [hdest, Lib.fill_of_lt hcap]
        have hlt := (hsmall (q, r) (by rw [Lib.fill_of_lt hcap]; exact hmem)).2
        refine ⟨part (q, r), List.mem_map_of_mem hmem, rfl, ?_⟩
        exact Nat.mod_eq_of_lt hlt

/-- There are too many similar items, or as many as asked for may be taken. -/
theorem canTakeMoreSimilar_cases (v : Player) (entry : ℕ) (count : UInt32) (pItem : Option Item) :
    (v.canTakeMoreSimilar T entry count pItem).1 = .cantCarryMoreOfThis ∨
      (v.canTakeMoreSimilar T entry count pItem).2 = 0 := by
  unfold canTakeMoreSimilar
  dsimp only
  generalize UInt32.ofNat (T entry).maxCount = maxCount
  generalize UInt32.ofNat _ = curcount
  split
  · exact .inr rfl
  · split
    · exact .inr rfl
    · split
      · exact .inl rfl
      · exact .inr rfl

theorem plansExactly_none {res : InventoryResult} (hcount : count ≠ 0)
    (hres : res ≠ .ok ∧ res ≠ .inventoryFull) :
    PlansExactly T v item view p count ⟨res, [], count⟩ where
  apart := List.nodup_nil
  amounts _ hc := absurd hc List.not_mem_nil
  sum := Nat.zero_add _
  ok_iff := iff_of_false hres.1 hcount
  full hfull := absurd hfull hres.2

/-- **When `_CanStoreItem` plans exactly**: of an item that is bound to another and of a place that
refuses it no plan is made, and else it depends on the rooms that the search comes to. -/
theorem canStoreItemCount_exact_iff (hv : v.Orderly T) (hcount : count ≠ 0)
    (htarget : IsStoreTarget T v p) (entry : ℕ) (pItem : Option Item) (swap : Bool) :
    PlansExactly T v (v.sought T entry pItem) (v.inTheWay T pItem p swap) p count
        (v.canStoreItemCount T p entry count pItem swap) ↔
      (pItem.any fun item => item.isBindedNotWith v) = true ∨
        Refused T v (v.sought T entry pItem) p swap ∨
          Plannable T v (v.sought T entry pItem) (v.inTheWay T pItem p swap) p
            (v.storeRooms T (v.sought T entry pItem) p swap)
            (count - (v.canTakeMoreSimilar T entry count pItem).2).toNat
            (v.canTakeMoreSimilar T entry count pItem).2 count := by
  rw [inTheWay_eq_cleared hv entry p swap]
  unfold canStoreItemCount
  split
  next hbound => exact iff_of_true (plansExactly_none hcount (by decide)) (.inl hbound)
  next hbound =>
    have hcases := canTakeMoreSimilar_cases (T := T) v entry count pItem
    rw [eq_false_of_ne_true hbound, or_iff_right Bool.false_ne_true]
    generalize v.canTakeMoreSimilar T entry count pItem = more at hcases ⊢
    obtain ⟨res, noSimilar⟩ := more
    dsimp only at hcases ⊢
    by_cases hall : count = noSimilar
    · -- not one more may be taken
      have hres : res = .cantCarryMoreOfThis :=
        hcases.resolve_right fun hzero => hcount (hall.trans hzero)
      rw [hres, if_pos (by simp [hall]), hall]
      refine iff_of_true (plansExactly_none (hall ▸ hcount) (by decide)) (.inr ⟨?_, ?_, ?_⟩)
      · intro before c after _ hlt
        rw [UInt32.sub_self] at hlt
        exact absurd hlt (Nat.not_lt_zero _)
      · exact .inl (UInt32.le_refl _)
      · intro _ _
        rw [UInt32.sub_self]
        exact .inl (Nat.zero_le _)
    · rw [if_neg (by simp [hall])]
      have hn : (count - noSimilar).toNat ≠ 0 := by
        intro hzero
        have hsub := (uint32_eq_zero_iff _).mpr hzero
        exact hall (sub_eq_zero.mp hsub)
      by_cases hrefused : Refused T v (v.sought T entry pItem) p swap
      · obtain ⟨res, hres, herror⟩ := search_refused noSimilar
          (count - noSimilar).toNat hv htarget hrefused
        rw [herror]
        refine iff_of_true ?_ (.inl hrefused)
        have hspace : refuse noSimilar res ⟨[], (count - noSimilar).toNat⟩ = ⟨res, [], count⟩ := by
          unfold refuse
          rw [UInt32.ofNat_toNat, UInt32.sub_add_cancel]
        rw [hspace]
        exact plansExactly_none hcount hres
      · rw [or_iff_right hrefused]
        have hsettled := settled_search noSimilar hv htarget hrefused hn
        obtain ⟨s, hs, hanswer⟩ := settled_answer hsettled
        have hexact := answerOf_exact_iff hv htarget hrefused hs (rfl : _ = (count - noSimilar).toNat)
        rw [← hanswer] at hexact
        exact hexact

/-! ## The answer without the count

Callers that do not ask how much there is no space for get the answer of `canStoreItem`. -/

/-- The result and the positions. -/
def withoutCount (a : StoreAnswer) : Answer := (a.res, a.dest)

theorem settle_answer (s : Search) :
    (settle noSimilar s).mapError withoutCount = leave noSimilar.toNat s := by
  have hzero : noSimilar = 0 ↔ noSimilar.toNat = 0 := UInt32.toNat_inj.symm
  unfold settle leave
  split
  · by_cases h : noSimilar = 0
    · simp [Except.mapError, withoutCount, h]
    · simp [Except.mapError, withoutCount, refuse, h, hzero.not.mp h]
  · rfl

theorem settleSpecific_answer (s : Search) :
    (v.settleSpecific T item p swap noSimilar s).mapError withoutCount =
      v.storeSpecific T item p swap noSimilar.toNat s := by
  unfold settleSpecific storeSpecific
  cases v.isValidPos T p with
  | false => split <;> rfl
  | true =>
    split
    · cases v.canStoreItemInSpecificSlot T item p swap s with
      | error res => rfl
      | ok s => exact settle_answer s
    · rfl

theorem settleOneBag_answer (bag : Fin 256) (merge : Bool) (slot : Fin 256) (s : Search) :
    (v.settleOneBag T item bag merge slot noSimilar s).mapError withoutCount =
      v.searchOneBag T item bag merge slot s >>= leave noSimilar.toNat := by
  unfold settleOneBag searchOneBag
  cases v.canStoreItemInBag T item bag merge false (nullBag, slot) s with
  | ok s => exact settle_answer s
  | error _ =>
    cases v.canStoreItemInBag T item bag merge true (nullBag, slot) s with
    | ok s => exact settle_answer s
    | error res => rfl

theorem settleInBag_answer (s : Search) :
    (v.settleInBag T item p noSimilar s).mapError withoutCount =
      v.storeInBag T item p noSimilar.toNat s := by
  have hpure (s : Search) : (pure s : Except StoreAnswer Search).mapError withoutCount = pure s := rfl
  unfold settleInBag storeInBag
  simp only [apply_ite (Except.mapError withoutCount), mapError_bind, settle_answer,
    settleOneBag_answer, hpure]

theorem answer_search (search : Except StoreAnswer Search) :
    withoutCount (match search with
      | .ok s => refuse noSimilar .inventoryFull s
      | .error a => a) = answer .inventoryFull (search.mapError withoutCount) := by
  cases search <;> rfl

/-- How many are too many, where what the player may carry and what he would have are words. -/
theorem canTakeMoreSimilar_eq (hmax : (T item.entry).maxCount < 2 ^ 32)
    (hcount : v.getItemCount T item.entry item + item.count < 2 ^ 32) :
    v.canTakeMoreSimilar T item.entry (UInt32.ofNat item.count) (some item) =
      ((v.canTakeMoreSimilarItems T item item.count).1,
        UInt32.ofNat (v.canTakeMoreSimilarItems T item item.count).2) := by
  have hzero : UInt32.ofNat (T item.entry).maxCount = 0 ↔ (T item.entry).maxCount = 0 := by
    rw [← UInt32.toNat_inj, UInt32.toNat_ofNat', Nat.mod_eq_of_lt hmax]
    rfl
  have hlt : UInt32.ofNat (T item.entry).maxCount <
      UInt32.ofNat (v.getItemCount T item.entry item) + UInt32.ofNat item.count ↔
      (T item.entry).maxCount < v.getItemCount T item.entry item + item.count := by
    rw [← UInt32.ofNat_add, UInt32.lt_iff_toNat_lt, UInt32.toNat_ofNat', UInt32.toNat_ofNat',
      Nat.mod_eq_of_lt hmax, Nat.mod_eq_of_lt hcount]
  unfold canTakeMoreSimilar canTakeMoreSimilarItems
  simp only [Option.any_some, hzero, hlt]
  split
  · rfl
  · split
    · rfl
    · split
      next hmore =>
        rw [UInt32.ofNat_sub (by omega), UInt32.ofNat_add]
      · rfl

/-- **The two answers agree**: but for `no_space_count`, the answer is that of `canStoreItem`. -/
theorem canStoreItemCount_answer (hmax : (T item.entry).maxCount < 2 ^ 32)
    (hcount : v.getItemCount T item.entry item + item.count < 2 ^ 32) :
    withoutCount (v.canStoreItemCount T p item.entry (UInt32.ofNat item.count) (some item) swap) =
      v.canStoreItem T item p swap := by
  have hitem : item.count < 2 ^ 32 := by omega
  have hsimilar : (v.canTakeMoreSimilarItems T item item.count).2 < 2 ^ 32 := by
    unfold canTakeMoreSimilarItems
    dsimp only
    split_ifs <;> dsimp only <;> omega
  unfold canStoreItemCount canStoreItem canStoreItemFrom
  rw [canTakeMoreSimilar_eq hmax hcount, Option.any_some]
  generalize v.canTakeMoreSimilarItems T item item.count = more at hsimilar ⊢
  obtain ⟨res, noSimilar⟩ := more
  have htoNat : (UInt32.ofNat noSimilar).toNat = noSimilar := UInt32.toNat_ofNat_of_lt' hsimilar
  have hsame : UInt32.ofNat item.count = UInt32.ofNat noSimilar ↔ item.count = noSimilar := by
    rw [← UInt32.toNat_inj, htoNat, UInt32.toNat_ofNat_of_lt' hitem]
  split
  · rfl
  · simp only [hsame]
    split
    · rfl
    · have hdiff : (UInt32.ofNat item.count - UInt32.ofNat noSimilar).toNat =
          if noSimilar ≤ item.count then item.count - noSimilar else item.count + 2 ^ 32 - noSimilar := by
        rw [UInt32.toNat_sub, htoNat, UInt32.toNat_ofNat_of_lt' hitem]
        split <;> omega
      rw [hdiff]
      refine (answer_search _).trans (congrArg _ ?_)
      simp only [mapError_bind, mapError_foldlM, settleSpecific_answer, settleInBag_answer,
        settle_answer, htoNat]
      rfl

/-! ## A slot of the backpack is asked for -/

/-- A bag of 24 slots, and items that do not stack. -/
def bagAndStones : Templates := fun entry =>
  if entry = 1 then ⟨1, 0, .bag, .noBind, 0, 1, 0, 24, false, false⟩
  else ⟨7, 0, .nonEquip, .noBind, 0, 1, 0, 0, false, false⟩

/-- An empty bag in the first slot for bags, and nothing else. -/
def bagCarrier : Player where
  guid := 1
  isAlive := true
  items slot := if slot = 19 then some ⟨100, 1, 1, 1, false, false, [], fun _ => none⟩ else none
  bankBagSlots := 0
  nextGuid := 101

theorem bagCarrier_item {p : Pos} {item : Item}
    (h : bagCarrier.getItemByPos bagAndStones p = some item) :
    p = (inventorySlotBag0, 19) ∧ item = ⟨100, 1, 1, 1, false, false, [], fun _ => none⟩ :=
  lone_item rfl rfl h

theorem bagCarrier_orderly : bagCarrier.Orderly bagAndStones where
  wellFormed := lone_wellFormed rfl rfl (by decide) (by decide) (by decide)
  positive p item hat := by
    rw [(bagCarrier_item hat).2]
    decide
  families p item hat hin := absurd (congrArg Prod.fst (bagCarrier_item hat).1) hin

/-- The slot of the backpack that is asked for is passed over in the bag too: of 40 items, one is left
over while a slot of the bag is free. -/
theorem bagSlot_passed_over :
    ¬ ∀ (T : Templates) (v : Player) (p : Pos) (count : UInt32) (entry : ℕ) (pItem : Option Item)
      (swap : Bool), v.Orderly T → count ≠ 0 → IsStoreTarget T v p →
      PlansExactly T v (v.sought T entry pItem) (v.inTheWay T pItem p swap) p count
        (v.canStoreItemCount T p entry count pItem swap) := by
  intro h
  have hplans := h bagAndStones bagCarrier (inventorySlotBag0, 23) 40 2 none false bagCarrier_orderly
    (by decide) (.inr (.inl ⟨rfl, .inr (by decide)⟩))
  have hroom : HasRoom bagAndStones bagCarrier (bagCarrier.sought bagAndStones 2 none)
      (bagCarrier.inTheWay bagAndStones none (inventorySlotBag0, 23) false) (19, 23) 1 := by
    refine ⟨⟨.inr ⟨by decide, _, rfl, by decide⟩, by decide, ?_, fun _ => by decide⟩,
      .inl ⟨rfl, rfl⟩⟩
    intro hown
    cases hown
  obtain ⟨c, hc, hpos, -⟩ := hplans.full (by decide +kernel) (.inr ⟨rfl, by decide⟩) (19, 23) 1 hroom
    (by decide)
  have hnone : ∀ c ∈ (bagCarrier.canStoreItemCount bagAndStones (inventorySlotBag0, 23) 2 40 none
      false).dest, c.pos ≠ (19, 23) := by
    decide +kernel
  exact hnone c hc hpos

/-- Of 20 items that are stored anywhere, each finds a slot. -/
theorem stones_planned :
    PlansExactly bagAndStones bagCarrier (bagCarrier.sought bagAndStones 2 none)
      (bagCarrier.inTheWay bagAndStones none (nullBag, nullSlot) false) (nullBag, nullSlot) 20
      (bagCarrier.canStoreItemCount bagAndStones (nullBag, nullSlot) 2 20 none false) := by
  refine (canStoreItemCount_exact_iff bagCarrier_orderly (by decide) (.inl rfl) 2 none false).mpr
    (.inr (.inr ⟨?_, .inl (by decide +kernel), fun hown => absurd hown (by decide)⟩))
  rw [← Lib.forall_fill_iff (fun m => 0 < m ∧ m < 256)]
  decide +kernel

end Player

end Sunstrider.Inventory
