import Mathlib.Algebra.Order.Group.Nat
import Sunstrider.Laws.Inventory.Frames

/-!
# The bank without a banker

`HandleSwapInvItemOpcode`, `HandleSwapItem`, `HandleAutoBankItemOpcode` and
`HandleAutoStoreBankItemOpcode` check `CanUseBank`; the other handlers that move items do not. Without a
banker the bank changes in the cases of `reachesBank`, and in no other (`handle_keepsBank_iff`).
-/

namespace Sunstrider.Inventory

deriving instance DecidableEq for Plan

namespace Player

variable (T : Templates) (R : Rules) (v : Player)

/-! ## What reaches the bank -/

/-- The plan by which a part of a stack is split off. -/
def splitPlan (src dst : Pos) (count : ℕ) : Option Plan :=
  match v.getItemByPos T src with
  | none => none
  | some srcItem =>
    if srcItem.count ≤ count || srcItem.lootGenerated then none
    else
      let (v, newItem) := v.cloneItem T srcItem count
      ((v.setCount T src (srcItem.count - count)).planItem T R newItem dst false).toOption

/-- Whether `SwapItem` equips an item. -/
def equipsAt (src dst : Pos) : Bool :=
  match v.getItemByPos T src with
  | none => false
  | some srcItem =>
    v.isAlive && !srcItem.lootGenerated && !v.staysOn T R src dst
      && !(isBagPos src && src.2 = dst.1) && !(isBagPos dst && src.1 = dst.2) &&
        match v.getItemByPos T dst with
        | none => (v.planItem T R srcItem dst false).isOk
        | some dstItem =>
          !dstItem.lootGenerated && !v.staysOn T R dst src
            && (v.planSwap T R srcItem dst).isOk && (v.planSwap T R dstItem src).isOk

/-- Whether `_HandleAutoEquipItemOpcode` equips an item. -/
def equips (src : Pos) : Bool :=
  match v.getItemByPos T src with
  | none => false
  | some srcItem =>
    !srcItem.lootGenerated &&
      match v.canEquipItem T R srcItem nullSlot (!srcItem.isBag T) with
      | .error _ => false
      | .ok dest =>
        match v.getItemByPos T dest with
        | none => true
        | some dstItem =>
          v.canUnequipItem T R dest (!srcItem.isBag T) = .ok && (v.planOff T R dstItem src).isOk

/-- The positions to which `HandleAutoStoreBagItemOpcode` moves an item. -/
def storesIn (src : Pos) (dstbag : Fin 256) : Option (List ItemPosCount) :=
  match v.getItemByPos T src with
  | none => none
  | some item =>
    if !v.isValidPos T (dstbag, nullSlot) then none
    else if isBagPos src then none
    else if isEquipmentPos src && v.canUnequipItem T R src true ≠ .ok then none
    else
      match v.canStoreItem T item (dstbag, nullSlot) false with
      | (.ok, dest) =>
        if dest.length = 1 && dest.any fun c => c.pos = src then none else some dest
      | _ => none

/-- The packets that change the bank without a banker: a stack that is split in the bank or into it, an
item that is equipped from the bank, and one that is stored from the bank or in a bag of it. -/
def reachesBank : Packet → Bool
  | .splitItem src dst count =>
    src ≠ dst && count ≠ 0 && v.isValidPos T src && v.isValidPos T dst &&
      match v.splitPlan T R src dst count.toNat with
      | none => false
      | some plan => if isBankPos src then plan ≠ .stored [⟨src, count⟩] else isBankPos dst
  | .autoEquipItemSlot item dstslot =>
    isEquipmentPos (inventorySlotBag0, dstslot) &&
      match v.posByGuid T item with
      | none => false
      | some src => isBankPos src && v.equipsAt T R src (inventorySlotBag0, dstslot)
  | .autoEquipItem src => isBankPos src && v.equips T R src
  | .autoStoreBagItem src dstbag =>
    match v.storesIn T R src dstbag with
    | none => false
    | some dest =>
      isBankPos src ||
        dest.any fun c => isBankPos c.pos && (c.count ≠ 0 || (v.getItemByPos T c.pos).isNone)
  | .swapInvItem .. | .swapItem .. | .autoBankItem .. | .autoStoreBankItem .. => false

/-- Guids stand for the items: no two are at different positions, and the next one is new. -/
structure Apart : Prop where
  once : ∀ p q a b, v.stackAt T p = some a → v.stackAt T q = some b → a.guid = b.guid → p = q
  old : ∀ p a, v.stackAt T p = some a → a.guid < v.nextGuid

variable {T R v}

variable {a : Item}

theorem Apart.guid_ne (h : v.Apart T) {p q : Pos} {b : Item} (ha : v.getItemByPos T p = some a)
    (hb : v.getItemByPos T q = some b) (hne : p ≠ q) : a.guid ≠ b.guid := by
  intro hguid
  apply hne
  apply h.once p q a.stack b.stack ?_ ?_ hguid
  · simp [stackAt, ha]
  · simp [stackAt, hb]

theorem Apart.lt (h : v.Apart T) {p : Pos} (ha : v.getItemByPos T p = some a) :
    a.guid < v.nextGuid := h.old p a.stack (by simp [stackAt, ha])

/-! ## Guids -/

variable {p q : Pos} {item : Item} {dest : List ItemPosCount}

theorem setItem_stackAt_self (h : v.HasPlace T p) (o : Option Item) :
    (v.setItem p o).stackAt T p = o.map Item.stack := by
  unfold stackAt
  rw [getItemByPos_setItem_self h]

theorem stackAt_setItem_of_ne (hp : isBagPos p = false) (hne : q ≠ p) (o : Option Item) :
    (v.setItem p o).stackAt T q = v.stackAt T q := by
  by_cases hown : p.1 = inventorySlotBag0
  · unfold stackAt
    rw [getItemByPos_setItem_own hown hp o hne]
  · exact stackAt_setItem_inside hown o hne

/-- The guids that come to a position as an item is stored: that of the item, those of clones, and the
one that is there. -/
theorem storeItemAt_guid {c : ItemPosCount} {clone : Bool} (hq : v.HasPlace T q)
    (hbag : isBagPos c.pos = true → c.pos = q) {b : Stack}
    (hb : (v.storeItemAt T item c clone).stackAt T q = some b) :
    b.guid = item.guid ∨ v.nextGuid ≤ b.guid ∨ ∃ a, v.stackAt T q = some a ∧ a.guid = b.guid := by
  by_cases heq : c.pos = q
  · unfold storeItemAt at hb
    cases hat : v.getItemByPos T c.pos with
    | some dest =>
      rw [hat] at hb
      rw [heq, setItem_stackAt_self hq] at hb
      cases hb
      refine .inr (.inr ⟨dest.stack, ?_, rfl⟩)
      unfold stackAt
      rw [← heq, hat, Option.map_some]
    | none =>
      rw [hat] at hb
      cases clone with
      | true =>
        have hplace : ({ v with nextGuid := v.nextGuid + 1 } : Player).HasPlace T q := hq
        simp only [if_true, cloneItem] at hb
        rw [heq, setItem_stackAt_self hplace] at hb
        cases hb
        exact .inr (.inl le_rfl)
      | false =>
        simp only [Bool.false_eq_true, if_false] at hb
        rw [heq, setItem_stackAt_self hq] at hb
        cases hb
        exact .inl rfl
  · obtain ⟨v', o, hset, hitems⟩ := v.storeItemAt_eq_setItem (T := T) item c clone
    have hc : isBagPos c.pos = false := Bool.eq_false_iff.mpr fun hc => heq (hbag hc)
    rw [hset, stackAt_setItem_of_ne hc (Ne.symm heq), stackAt_of_items hitems] at hb
    exact .inr (.inr ⟨b, hb, rfl⟩)

theorem storeItemAt_nextGuid_le (v : Player) (c : ItemPosCount) (clone : Bool) :
    v.nextGuid ≤ (v.storeItemAt T item c clone).nextGuid := by
  unfold storeItemAt
  split
  · rw [setItem_nextGuid]
  · cases clone with
    | true =>
      simp only [if_true, cloneItem]
      rw [setItem_nextGuid]
      exact Nat.le_succ _
    | false =>
      simp only [Bool.false_eq_true, if_false]
      rw [setItem_nextGuid]

theorem storeItem_guid (dest : List ItemPosCount) {v : Player} (hq : v.HasPlace T q)
    (hbag : ∀ c ∈ dest, isBagPos c.pos = true → c.pos = q) {b : Stack}
    (hb : (storeItem T item dest v).stackAt T q = some b) :
    b.guid = item.guid ∨ v.nextGuid ≤ b.guid ∨ ∃ a, v.stackAt T q = some a ∧ a.guid = b.guid := by
  induction dest generalizing v with
  | nil => exact .inr (.inr ⟨b, hb, rfl⟩)
  | cons c dest ih =>
    have hc := hbag c List.mem_cons_self
    cases dest with
    | nil => exact storeItemAt_guid hq hc hb
    | cons d dest =>
      have hrest : ∀ e ∈ d :: dest, isBagPos e.pos = true → e.pos = q := by
        intro e he
        exact hbag e (List.mem_cons_of_mem c he)
      rcases ih (hq.storeItemAt c true) hrest hb with h | h | ⟨a, ha, hguid⟩
      · exact .inl h
      · exact .inr (.inl ((storeItemAt_nextGuid_le v c true).trans h))
      · rw [← hguid]
        exact storeItemAt_guid hq hc ha

/-! ## Splitting -/

variable {plan : List (Pos × ℕ)}

theorem eq_singleton_of_sum_le {c : Pos × ℕ} (hpos : ∀ d ∈ plan, 0 < d.2) (hc : c ∈ plan)
    (hsum : (plan.map Prod.snd).sum ≤ c.2) : plan = [c] := by
  obtain ⟨before, after, rfl⟩ := List.append_of_mem hc
  have hempty : ∀ l : List (Pos × ℕ), (∀ d ∈ l, 0 < d.2) → (l.map Prod.snd).sum = 0 → l = [] := by
    rintro (_ | ⟨d, l⟩) hl hzero
    · rfl
    · have hd := hl d List.mem_cons_self
      rw [List.map_cons, List.sum_cons] at hzero
      omega
  simp only [List.map_append, List.map_cons, List.sum_append, List.sum_cons] at hsum
  rw [hempty before (fun d hd => hpos d (by simp [hd])) (by omega),
    hempty after (fun d hd => hpos d (by simp [hd])) (by omega)]
  rfl

variable {view : Pos → Option Stack} {kind : Pos → Bool} {n : ℕ}

variable {Q : Pos → Prop}

theorem Planned.amounts_eq (h : Planned T v item view Q n plan ⟨dest, 0⟩) (hn : n < 256) :
    amounts dest = plan := by
  have hdest : dest = plan.map part := h.dest_eq
  have hle : ∀ c ∈ plan, c.2 ≤ n := by
    intro c hc
    have hmem := List.le_sum_of_mem (List.mem_map_of_mem (f := Prod.snd) hc)
    have hsum := h.sum
    omega
  rw [hdest, amounts, List.map_map]
  conv_rhs => rw [← List.map_id plan]
  apply List.map_congr_left
  intro c hc
  have hc' := hle c hc
  exact Prod.ext rfl (Nat.mod_eq_of_lt (by omega))

theorem Planned.stores (h : Planned T v item view (Place T v item view kind p) n plan ⟨dest, 0⟩)
    {v' : Player} (hplaces : ∀ q, v.HasPlace T q → v'.HasPlace T q)
    (hbags : ∀ c ∈ dest, isBagPos c.pos = true → item.Hollow T) :
    Lib.Stores (fun _ => True) Stack.entry Stack.count Stack.guid item.entry item.guid (amounts dest)
      (v'.held T) ((storeItem T item dest v').held T) := by
  have hdest : dest = plan.map part := h.dest_eq
  apply storeItem_stores dest ?_ hbags ?_ fun _ _ => trivial
  · intro c hc
    rw [hdest] at hc
    obtain ⟨d, hd, rfl⟩ := List.mem_map.mp hc
    exact hplaces _ (h.allowed d hd).hasPlace
  · intro c hc
    rw [hdest] at hc
    obtain ⟨d, hd, rfl⟩ := List.mem_map.mp hc
    exact (Nat.mod_le ..).trans (h.fits.room d hd).1

theorem Planned.stackable_pos (h : Planned T v item view Q n plan ⟨dest, 0⟩) (hn : 0 < n) :
    0 < (T item.entry).stackable := by
  by_contra hzero
  have hparts : (plan.map Prod.snd).sum = 0 := by
    apply List.sum_eq_zero
    intro m hm
    obtain ⟨c, hc, rfl⟩ := List.mem_map.mp hm
    have hroom := (h.fits.room c hc).1
    omega
  have hsum := h.sum
  dsimp only at hsum
  omega

variable {dst : Pos}

theorem splitPlan_none {src : Pos} {count : ℕ} (h : v.splitPlan T R src dst count = none) :
    (v.splitItem T R src dst count).items = v.items := by
  unfold splitPlan at h
  unfold splitItem
  split
  · rfl
  · next srcItem hat =>
    rw [hat] at h
    dsimp only at h ⊢
    split
    · rfl
    · next hcan =>
      rw [if_neg hcan] at h
      split
      · next plan hplan =>
        rw [hplan] at h
        cases h
      · rfl

theorem HasPlace.setCount (h : v.HasPlace T p) (q : Pos) (n : ℕ) : (v.setCount T q n).HasPlace T p := by
  unfold Player.setCount
  by_cases hq : isBagPos q = true
  · apply h.setItem_bag hq
    intro bag hbag
    rw [hbag]
    exact ⟨_, rfl, rfl⟩
  · exact h.setItem (Bool.eq_false_iff.mpr hq) _

theorem stackAt_setCount (h : v.getItemByPos T p = some a) (n : ℕ) :
    (v.setCount T p n).stackAt T =
      Function.update (v.stackAt T) p (some { a.stack with count := n }) := by
  have hwrites : v.Writes T p (some { a with count := n }) := .grow h rfl rfl
  unfold setCount
  rw [h, Option.map_some]
  exact congrArg Prod.fst (held_setItem (hasPlace_of_getItemByPos h) hwrites)

/-- A part of a stack is on its way: the rest of the stack lies where it was. -/
structure OnTheWay (T : Templates) (v rest : Player) (src : Pos) (srcItem newItem : Item)
    (count : ℕ) : Prop where
  at_src : v.getItemByPos T src = some srcItem
  pos : 0 < count
  lt : count < srcItem.count
  rest_eq : rest.stackAt T =
    Function.update (v.stackAt T) src (some { srcItem.stack with count := srcItem.count - count })
  places : ∀ q, v.HasPlace T q → rest.HasPlace T q
  part_pos : 0 < newItem.count
  part_le : newItem.count ≤ count
  hollow : newItem.Hollow T

theorem splitPlan_some {src : Pos} {count : ℕ} {plan : Plan} (hcount : 0 < count)
    (h : v.splitPlan T R src dst count = some plan) :
    ∃ srcItem newItem rest, OnTheWay T v rest src srcItem newItem count ∧
      rest.planItem T R newItem dst false = .ok plan ∧
        v.splitItem T R src dst count = place T newItem plan rest := by
  unfold splitPlan at h
  unfold splitItem
  cases hat : v.getItemByPos T src with
  | none =>
    rw [hat] at h
    cases h
  | some srcItem =>
    rw [hat] at h
    dsimp only at h ⊢
    split at h
    · cases h
    · next hcan =>
      cases hplan : ((v.cloneItem T srcItem count).1.setCount T src (srcItem.count - count)).planItem
          T R (v.cloneItem T srcItem count).2 dst false with
      | error res =>
        rw [hplan] at h
        cases h
      | ok plan' =>
        rw [hplan] at h
        cases h
        refine ⟨srcItem, (v.cloneItem T srcItem count).2,
          (v.cloneItem T srcItem count).1.setCount T src (srcItem.count - count), ?_, hplan, ?_⟩
        · simp only [Bool.or_eq_true, decide_eq_true_eq, not_or, not_le] at hcan
          have hmax : 0 < (T srcItem.entry).getMaxStackSize := by
            unfold ItemTemplate.getMaxStackSize
            split
            · decide
            · next hstack =>
              simp only [Bool.or_eq_true, decide_eq_true_eq, not_or] at hstack
              omega
          have hsame : (v.cloneItem T srcItem count).1.getItemByPos T src = some srcItem := hat
          have hplaces : ∀ q, v.HasPlace T q → (v.cloneItem T srcItem count).1.HasPlace T q := by
            intro q hq
            exact hq.of_items rfl
          exact
            { at_src := hat
              pos := hcount
              lt := hcan.1
              rest_eq := stackAt_setCount hsame _
              places := fun q hq => (hplaces q hq).setCount src _
              part_pos := lt_min hcount hmax
              part_le := min_le_left ..
              hollow := Item.hollow_of_bagslot rfl }
        · rw [if_neg hcan]

theorem Planned.changes {v' : Player}
    (h : Planned T v item view (Place T v item view kind p) n plan ⟨dest, 0⟩) (hn : n < 256)
    (hplaces : ∀ q, v.HasPlace T q → v'.HasPlace T q)
    (hbags : ∀ c ∈ dest, isBagPos c.pos = true → item.Hollow T) :
    (∀ q, q ∉ plan.map Prod.fst → (storeItem T item dest v').stackAt T q = v'.stackAt T q) ∧
      ∀ c ∈ plan, Lib.Taken Stack.entry Stack.count Stack.guid item.entry item.guid c (v'.held T)
        ((storeItem T item dest v').held T) := by
  have hstores := h.stores hplaces hbags
  rw [h.amounts_eq hn] at hstores
  exact ⟨fun q hq => hstores.eq_of_not_mem hq,
    fun c hc => hstores.mem h.fits.apart c hc trivial⟩

section Split

variable {rest : Player} {src : Pos} {srcItem newItem : Item} {count : ℕ}
  {parts : List (Pos × ℕ)}

section

variable (h : OnTheWay T v rest src srcItem newItem count)

include h

theorem OnTheWay.stackAt_src : v.stackAt T src = some srcItem.stack := by
  unfold stackAt
  rw [h.at_src, Option.map_some]

theorem OnTheWay.rest_src :
    rest.stackAt T src = some { srcItem.stack with count := srcItem.count - count } := by
  rw [h.rest_eq, Function.update_self]

theorem OnTheWay.rest_ne (hq : q ≠ src) : rest.stackAt T q = v.stackAt T q := by
  rw [h.rest_eq, Function.update_of_ne hq]

theorem OnTheWay.less : rest.stackAt T src ≠ v.stackAt T src := by
  have hpos := h.pos
  have hlt := h.lt
  rw [h.rest_src, h.stackAt_src]
  intro hsame
  have hcount : srcItem.count - count = srcItem.count :=
    congrArg Stack.count (Option.some.inj hsame)
  omega

/-- The part is put back as a whole, where the stack is as it was. -/
theorem OnTheWay.dest_eq (hcount : count < 256)
    (hparts : Planned T rest newItem view (Place T rest newItem view kind p) newItem.count parts
      ⟨dest, 0⟩)
    (hsame : (storeItem T newItem dest rest).stackAt T src = v.stackAt T src) :
    dest = [⟨src, UInt8.ofNat count⟩] := by
  have hle := h.part_le
  obtain ⟨hother, htaken⟩ := hparts.changes (by omega) (fun _ h => h) fun _ _ _ => h.hollow
  by_cases hmem : src ∈ parts.map Prod.fst
  · obtain ⟨c, hc, rfl⟩ := List.mem_map.mp hmem
    rcases htaken c hc with ⟨a, b, ha, hb, -, -, hgrown⟩ | ⟨hnone, -⟩
    · have ha' := ha.symm.trans h.rest_src
      have hb' := hb.symm.trans (hsame.trans h.stackAt_src)
      rw [Option.some.inj ha', Option.some.inj hb'] at hgrown
      have hlt := h.lt
      have hamount : c.2 = count := by
        change srcItem.count = srcItem.count - count + c.2 at hgrown
        omega
      have hpartspos := hparts.pos (hparts.stackable_pos h.part_pos) h.part_pos
      have hsingle : parts = [c] := by
        apply eq_singleton_of_sum_le hpartspos hc
        have hsum := hparts.sum
        omega
      have hdest : dest = parts.map part := hparts.dest_eq
      rw [hdest, hsingle, ← hamount]
      rfl
    · cases hnone.symm.trans h.rest_src
  · rw [hother src hmem] at hsame
    exact absurd hsame h.less

/-- Where the part is put back as a whole, all is as it was. -/
theorem OnTheWay.keeps (hcount : count < 256)
    (hparts : Planned T rest newItem view (Place T rest newItem view kind p) newItem.count parts
      ⟨dest, 0⟩)
    (hdest : dest = [⟨src, UInt8.ofNat count⟩]) :
    (storeItem T newItem dest rest).stackAt T = v.stackAt T := by
  have hle := h.part_le
  have hlt := h.lt
  obtain ⟨hother, htaken⟩ := hparts.changes (by omega) (fun _ h => h) fun _ _ _ => h.hollow
  have hone : parts = [(src, count)] := by
    rw [← hparts.amounts_eq (by omega), hdest, amounts_cons, amounts_nil, UInt8.toNat_ofNat',
      Nat.mod_eq_of_lt hcount]
  ext1 q
  by_cases hq : q = src
  · rw [hq]
    rcases htaken (src, count) (by rw [hone]; exact List.mem_cons_self) with
      ⟨a, b, ha, hb, hentry, hguid, hgrown⟩ | ⟨hnone, -⟩
    · have ha' := Option.some.inj (ha.symm.trans h.rest_src)
      rw [ha'] at hentry hguid hgrown
      have hb' : b = srcItem.stack := by
        ext
        · exact hguid
        · exact hentry
        · change b.count = srcItem.count - count + count at hgrown
          change b.count = srcItem.count
          omega
      rw [h.stackAt_src, ← hb']
      exact hb
    · cases hnone.symm.trans h.rest_src
  · rw [hother q, h.rest_ne hq]
    rw [hone, List.map_singleton, List.mem_singleton]
    exact hq

/-- A part that is put elsewhere changes a position there. -/
theorem OnTheWay.changes (hcount : count < 256)
    (hparts : Planned T rest newItem view (Place T rest newItem view kind p) newItem.count parts
      ⟨dest, 0⟩)
    (haway : src ∉ parts.map Prod.fst) :
    ∃ q ∈ parts.map Prod.fst, (storeItem T newItem dest rest).stackAt T q ≠ v.stackAt T q := by
  have hle := h.part_le
  obtain ⟨-, htaken⟩ := hparts.changes (by omega) (fun _ h => h) fun _ _ _ => h.hollow
  have hne : parts ≠ [] := by
    rintro rfl
    have hsum := hparts.sum
    exact h.part_pos.ne hsum
  obtain ⟨c, hc⟩ := List.exists_mem_of_ne_nil parts hne
  have hmem := List.mem_map_of_mem (f := Prod.fst) hc
  have hcsrc : c.1 ≠ src := fun heq => haway (heq ▸ hmem)
  have hpartspos := hparts.pos (hparts.stackable_pos h.part_pos) h.part_pos c hc
  refine ⟨c.1, hmem, ?_⟩
  rw [← h.rest_ne hcsrc]
  intro hsame
  rcases htaken c hc with ⟨a, b, ha, hb, -, -, hgrown⟩ | ⟨hnone, b, hb, -⟩
  · have hab := Option.some.inj (hb.symm.trans (hsame.trans ha))
    rw [hab] at hgrown
    omega
  · cases hb.symm.trans (hsame.trans hnone)

end

/-- A part of a stack is split off in the bank, or into it. The bank is as it was only where the part
is put back. -/
theorem splitItem_keepsBank_iff {count : UInt8} {plan : Plan} (hcount : count ≠ 0)
    (hvalid : v.isValidPos T dst = true) (hplan : v.splitPlan T R src dst count.toNat = some plan) :
    KeepsBank T v (v.splitItem T R src dst count.toNat) ↔
      if isBankPos src then plan = .stored [⟨src, count⟩] else isBankPos dst = false := by
  have hpos : 0 < count.toNat := by
    rw [Nat.pos_iff_ne_zero, Ne, ← UInt8.toNat_zero, UInt8.toNat_inj]
    exact hcount
  have hlt := count.toNat_lt
  obtain ⟨srcItem, newItem, rest, h, hplanned, heq⟩ := splitPlan_some hpos hplan
  rw [heq]
  by_cases hdst : isBankPos dst = true
  · rcases planItem_ok hplanned with ⟨hinv, -⟩ | ⟨-, -, dest, rfl, hdest⟩ | ⟨hequip, -⟩
    · rw [not_bank_of_isInventoryPos hinv] at hdst
      cases hdst
    · obtain ⟨parts, hparts⟩ := canBankItem_planned (isContainer_of_isBankPos hdst)
        (fun hspecific => h.places dst (.of_isValidPos hspecific hvalid)) hdest
      by_cases hbank : isBankPos src = true
      · rw [if_pos hbank]
        constructor
        · intro hkept
          have hsingle := h.dest_eq hlt hparts (hkept src hbank)
          rw [UInt8.ofNat_toNat] at hsingle
          rw [hsingle]
        · intro hback
          cases hback
          intro q _
          exact congrFun (h.keeps hlt hparts (by rw [UInt8.ofNat_toNat])) q
      · rw [if_neg hbank, hdst]
        refine ⟨fun hkept => ?_, fun hno => by cases hno⟩
        have hall : ∀ q ∈ parts.map Prod.fst, isBankPos q = true := by
          intro q hq
          have hdesteq : dest = parts.map part := hparts.dest_eq
          rw [← map_part_pos, ← hdesteq] at hq
          obtain ⟨c, hc, rfl⟩ := List.mem_map.mp hq
          exact (canBankItem_asked (isContainer_of_isBankPos hdst) hdest c hc).bank hdst
        obtain ⟨q, hq, hne⟩ := h.changes hlt hparts fun hmem => hbank (hall src hmem)
        exact absurd (hkept q (hall q hq)) hne
    · rw [(not_bank_of_isEquipmentPos hequip).2] at hdst
      cases hdst
  · have hdst' := Bool.eq_false_iff.mpr hdst
    have hout := planItem_outside hdst' hplanned
    by_cases hbank : isBankPos src = true
    · rw [if_pos hbank]
      constructor
      · intro hkept
        have hsame := hkept src hbank
        rw [keepsBank_place hout src hbank] at hsame
        exact absurd hsame h.less
      · rintro rfl
        have hbad : isBankPos src = false := hout _ List.mem_cons_self
        rw [hbank] at hbad
        cases hbad
    · rw [if_neg hbank]
      refine ⟨fun _ => hdst', fun _ => ?_⟩
      rw [← heq]
      exact splitItem_keepsBank (Bool.eq_false_iff.mpr hbank) hdst'

end Split

/-! ## Equipping -/

theorem Asked.bag (h : Asked isBankStorePos p q) (hq : isBagPos q = true) :
    isSpecific p = true ∧ q = p := by
  obtain ⟨hown, hslot⟩ := isBagPos_iff.mp hq
  rcases h with h | ⟨hbag, heq⟩ | h
  · exact h
  · exact absurd (heq.symm.trans hown) (bagSlot_ne_bag0 hbag)
  · have hbag0 : isBankBagSlot inventorySlotBag0 = false := by decide
    simp only [isBankStorePos, hown, hbag0, decide_true, Bool.true_and, Bool.or_false, isBankSlot,
      Bool.and_eq_true, decide_eq_true_eq] at h
    simp only [isBagSlot, isInventoryBagSlot, isBankBagSlot, Bool.or_eq_true, Bool.and_eq_true,
      decide_eq_true_eq] at hslot
    omega

theorem HasPlace.setItem_outside (h : v.HasPlace T p) (hp : isBankPos p = true)
    (hq : isBankPos q = false) (o : Option Item) : (v.setItem q o).HasPlace T p := by
  rcases h with h | ⟨hbag, bag, hat, hlt⟩
  · exact .inl h
  · refine .inr ⟨hbag, bag, ?_, hlt⟩
    have hslot : isBankBagSlot p.1 = true := (isBankPos_of_inside (bagSlot_ne_bag0 hbag)) ▸ hp
    unfold Player.setItem
    by_cases hown : q.1 = inventorySlotBag0
    · rw [if_pos hown]
      refine (Function.update_of_ne ?_ ..).trans hat
      intro heq
      rw [isBankPos_of_own hown, ← heq, hslot, Bool.or_true] at hq
      cases hq
    · rw [if_neg hown]
      refine (Function.update_of_ne ?_ ..).trans hat
      intro heq
      rw [isBankPos_of_inside hown, ← heq, hslot] at hq
      cases hq

theorem HasPlace.removeItem_outside (h : v.HasPlace T p) (hp : isBankPos p = true)
    (hq : isBankPos q = false) : (v.removeItem T q).HasPlace T p := by
  unfold removeItem
  split
  · exact h.setItem_outside hp hq none
  · exact h

theorem HasPlace.removeItem_self (h : v.HasPlace T p) : (v.removeItem T p).HasPlace T p := by
  unfold removeItem
  split
  · by_cases hown : p.1 = inventorySlotBag0
    · exact .inl (h.elim id fun hin => absurd hown (bagSlot_ne_bag0 hin.1))
    · apply h.setItem
      simp [isBagPos, hown]
  · exact h

theorem HasPlace.equipItem (h : v.HasPlace T p) (hp : isBankPos p = true)
    (hq : isEquipmentPos q = true) : (v.equipItem T q item).HasPlace T p := by
  obtain ⟨hown, hbank⟩ := not_bank_of_isEquipmentPos hq
  have hpos := own_eq hown
  unfold Player.equipItem
  split
  · exact h.setItem_outside hp hbank _
  · rw [hpos]
    exact h.setItem_outside hp hbank _

theorem stackAt_removeItem_self (h : v.HasPlace T p) : (v.removeItem T p).stackAt T p = none := by
  unfold removeItem
  cases hat : v.getItemByPos T p with
  | some a => exact setItem_stackAt_self h none
  | none =>
    unfold stackAt
    rw [hat, Option.map_none]

variable {dstItem : Item}

/-- **An item of the bank that changes places with one that is worn** is no longer where it was. -/
theorem equipped_changes (h : v.Apart T) {src e : Pos} {srcItem : Item} {dest : List ItemPosCount}
    (hsrc : isBankPos src = true) (hat : v.getItemByPos T src = some srcItem)
    (he : isEquipmentPos e = true) (hdst : v.getItemByPos T dst = some dstItem)
    (hworn : isBankPos dst = false) (hdest : ∀ c ∈ dest, isBagPos c.pos = true → c.pos = src) :
    ((storeItem T dstItem dest (((v.removeItem T dst).removeItem T src).equipItem T e srcItem)
      ).autoUnequipOffhandIfNeed T).stackAt T src ≠ v.stackAt T src := by
  have hplace := hasPlace_of_getItemByPos hat
  have hplace' := (hplace.removeItem_outside hsrc hworn).removeItem_self
  have hempty : (((v.removeItem T dst).removeItem T src).equipItem T e srcItem).stackAt T src =
      none := by
    rw [keepsBank_equipItem he src hsrc]
    exact stackAt_removeItem_self (hplace.removeItem_outside hsrc hworn)
  have hsame : v.stackAt T src = some srcItem.stack := by
    unfold stackAt
    rw [hat, Option.map_some]
  rw [keepsBank_autoUnequipOffhand _ src hsrc, hsame]
  intro hkept
  rcases storeItem_guid dest (hplace'.equipItem hsrc he) hdest hkept with hguid | hle | ⟨a, ha, -⟩
  · refine h.guid_ne hat hdst ?_ hguid
    rintro rfl
    rw [hworn] at hsrc
    cases hsrc
  · rw [equipItem_nextGuid, removeItem_nextGuid, removeItem_nextGuid] at hle
    have hlt := h.lt hat
    exact absurd hlt (Nat.not_lt.mpr hle)
  · rw [hempty] at ha
    cases ha

theorem planBack_mem {ask : Pos → List ItemPosCount → Answer} {src : Pos} {res : InventoryResult}
    (hask : ∀ p ∈ [src, (src.1, nullSlot), (nullBag, nullSlot)], ∀ dest res dest',
      ask p dest = (res, dest') → ∀ c ∈ dest', c ∈ dest ∨ Q c.pos)
    (h : planBack ask src = (res, dest)) : ∀ c ∈ dest, Q c.pos := by
  have hfirst := hask src (by simp)
  have hbag := hask (src.1, nullSlot) (by simp)
  have hall := hask (nullBag, nullSlot) (by simp)
  unfold planBack at h
  split at h
  next dest₁ h₁ =>
    cases h
    intro c hc
    exact (hfirst _ _ _ h₁ c hc).resolve_left List.not_mem_nil
  next res₁ dest₁ _ h₁ =>
    have hin : ∀ c ∈ dest₁, Q c.pos := by
      intro c hc
      exact (hfirst _ _ _ h₁ c hc).resolve_left List.not_mem_nil
    split at h
    next dest₂ h₂ =>
      cases h
      intro c hc
      exact (hbag _ _ _ h₂ c hc).elim (hin c) id
    next res₂ dest₂ _ h₂ =>
      intro c hc
      rcases hall _ _ _ h c hc with hc | hc
      · exact (hbag _ _ _ h₂ c hc).elim (hin c) id
      · exact hc

theorem planOff_bank {src : Pos} {plan : Plan} (hsrc : isBankPos src = true)
    (h : v.planOff T R dstItem src = .ok plan) :
    ∃ dest, plan = .stored dest ∧ ∀ c ∈ dest, isBagPos c.pos = true → c.pos = src := by
  have hinv : isInventoryPos src ≠ true := by
    intro hinv
    rw [not_bank_of_isInventoryPos hinv] at hsrc
    cases hsrc
  unfold planOff at h
  dsimp only at h
  rw [if_neg hinv, if_pos hsrc] at h
  split at h
  · next dest hdest =>
    cases h
    refine ⟨dest, rfl, planBack_mem (Q := fun q => isBagPos q = true → q = src) ?_ hdest⟩
    intro p hp dest res dest' hanswer c hc
    have hcontainer : isContainer p.1 = true := by
      simp only [List.mem_cons, List.not_mem_nil, or_false] at hp
      have hsrc' : isContainer src.1 = true := isContainer_of_isBankPos hsrc
      rcases hp with rfl | rfl | rfl
      · exact hsrc'
      · exact hsrc'
      · decide
    apply (canBankItemFrom_asked hcontainer hanswer c hc).imp_right
    intro hasked hbag
    obtain ⟨hspecific, heq⟩ := hasked.bag hbag
    simp only [List.mem_cons, List.not_mem_nil, or_false] at hp
    rcases hp with rfl | rfl | rfl
    · exact heq
    · simp [isSpecific] at hspecific
    · simp [isSpecific] at hspecific
  · cases h

theorem planOff_outside {src : Pos} {plan : Plan} (hsrc : isBankPos src = false)
    (h : v.planOff T R dstItem src = .ok plan) : Outside plan := by
  unfold planOff at h
  dsimp only at h
  split at h
  · next hinv =>
    split at h
    · next dest hdest =>
      cases h
      refine planBack_mem (Q := fun q => isBankPos q = false) ?_ hdest
      intro p hp dest res dest' hanswer c hc
      simp only [List.mem_cons, List.not_mem_nil, or_false] at hp
      have hcontainer : isContainer p.1 = true ∧ isBankPos p = false := by
        have hsrc' := isContainer_of_isInventoryPos hinv
        rcases hp with rfl | rfl | rfl
        · exact ⟨hsrc', hsrc⟩
        · refine ⟨hsrc', ?_⟩
          by_cases hown : src.1 = inventorySlotBag0
          · rw [hown]
            decide
          · rw [isBankPos_of_inside hown] at hsrc
            exact (isBankPos_of_inside (p := (src.1, nullSlot)) hown).trans hsrc
        · exact ⟨by decide, by decide⟩
      apply (canStoreItemFrom_asked hcontainer.1 hanswer c hc).imp_right
      intro hasked
      exact hasked.not_bank hcontainer.2
    · cases h
  · split at h
    · next hbank =>
      rw [hsrc] at hbank
      cases hbank
    · exact planSwap_outside hsrc h

theorem autoEquipItem_keepsBank {src : Pos} (hsrc : isBankPos src = false) :
    KeepsBank T v (v.autoEquipItem T R src) := by
  unfold autoEquipItem
  split
  · exact .refl v
  · next srcItem hat =>
    split
    · exact .refl v
    · split
      · exact .refl v
      · next dest hcan =>
        have hequip := canEquipItem_pos hcan
        split
        · exact .refl v
        · split
          · have hout : Outside (.equipped dest) := hequip
            exact (keepsBank_removeItem hsrc).trans (keepsBank_place hout)
          · next dstItem hdst =>
            split
            · exact .refl v
            · split
              · exact .refl v
              · next plan hplan =>
                apply (keepsBank_removeItem (not_bank_of_isEquipmentPos hequip).2).trans
                apply (keepsBank_removeItem hsrc).trans
                apply (keepsBank_equipItem hequip).trans
                apply (keepsBank_carryOut (planOff_outside hsrc hplan)).trans
                exact keepsBank_autoUnequipOffhand _

theorem autoEquipItem_keepsBank_iff (h : v.Apart T) (src : Pos) :
    KeepsBank T v (v.autoEquipItem T R src) ↔ (isBankPos src && v.equips T R src) = false := by
  by_cases hsrc : isBankPos src = true
  · rw [hsrc, Bool.true_and]
    unfold autoEquipItem equips
    cases hat : v.getItemByPos T src with
    | none => simp
    | some srcItem =>
      dsimp only
      by_cases hloot : srcItem.lootGenerated = true
      · simp [hloot]
      · simp only [hloot, Bool.false_eq_true, if_false, Bool.not_false, Bool.true_and]
        cases hcan : v.canEquipItem T R srcItem nullSlot (!srcItem.isBag T) with
        | error res => simp
        | ok dest =>
          have hequip := canEquipItem_pos hcan
          have hworn := (not_bank_of_isEquipmentPos hequip).2
          have hne : dest ≠ src := by
            rintro rfl
            rw [hworn] at hsrc
            cases hsrc
          have hsame : v.stackAt T src = some srcItem.stack := by
            unfold stackAt
            rw [hat, Option.map_some]
          dsimp only
          rw [if_neg hne]
          cases hdst : v.getItemByPos T dest with
          | none =>
            refine ⟨fun hkept => ?_, fun hno => by cases hno⟩
            have hout : Outside (.equipped dest) := hequip
            have hgone := hkept src hsrc
            rw [keepsBank_place hout src hsrc,
              stackAt_removeItem_self (hasPlace_of_getItemByPos hat), hsame] at hgone
            cases hgone
          | some dstItem =>
            dsimp only
            by_cases hoff : v.canUnequipItem T R dest (!srcItem.isBag T) = .ok
            · rw [if_neg (not_not.mpr hoff), hoff]
              cases hplan : v.planOff T R dstItem src with
              | error res => simp [Except.isOk, Except.toBool]
              | ok plan =>
                refine ⟨fun hkept => ?_, fun hno => by cases hno⟩
                obtain ⟨dests, rfl, hbag⟩ := planOff_bank hsrc hplan
                exact absurd (hkept src hsrc)
                  (equipped_changes h hsrc hat hequip hdst hworn hbag)
            · simp [hoff]
  · rw [Bool.eq_false_iff.mpr hsrc, Bool.false_and]
    simp only [iff_true]
    exact autoEquipItem_keepsBank (Bool.eq_false_iff.mpr hsrc)

/-- What is asked for a slot of the equipment is whether it can be equipped. -/
theorem planItem_equipment {plan : Plan} {swap : Bool} (hdst : isEquipmentPos dst = true)
    (h : v.planItem T R item dst swap = .ok plan) :
    ∃ e, plan = .equipped e ∧ v.canEquipItem T R item dst.2 swap = .ok e := by
  rcases planItem_ok h with ⟨hinv, -⟩ | ⟨-, hbank, -⟩ | ⟨-, he⟩
  · rw [not_inventory_of_isEquipmentPos hdst] at hinv
    cases hinv
  · rw [(not_bank_of_isEquipmentPos hdst).2] at hbank
    cases hbank
  · exact he

theorem planItem_worn (hdst : isEquipmentPos dst = true) (hat : v.getItemByPos T dst = some dstItem)
    : ∃ res, v.planItem T R item dst false = .error res := by
  cases hplan : v.planItem T R item dst false with
  | error res => exact ⟨res, rfl⟩
  | ok plan =>
    obtain ⟨e, -, he⟩ := planItem_equipment hdst hplan
    have hfree := findEquipSlot_free (equipment_slot_ne_null hdst) (canEquipItem_ok he).2.1
    rw [← own_eq (not_bank_of_isEquipmentPos hdst).1, hfree] at hat
    cases hat

theorem swapItem_of_not_equipsAt {src : Pos} (hdst : isEquipmentPos dst = true)
    (h : v.equipsAt T R src dst = false) : v.swapItem T R src dst = v := by
  unfold equipsAt at h
  unfold swapItem
  cases hat : v.getItemByPos T src with
  | none => rfl
  | some srcItem =>
    rw [hat] at h
    dsimp only at h ⊢
    split
    · rfl
    · next hstays =>
      split
      · rfl
      · next hin =>
        split
        · rfl
        · next hin' =>
          simp only [Bool.or_eq_true, Bool.not_eq_true', not_or, Bool.not_eq_false,
            Bool.not_eq_true] at hstays
          simp only [hstays.1.1, hstays.1.2, hstays.2, Bool.eq_false_iff.mpr hin,
            Bool.eq_false_iff.mpr hin', Bool.not_false, Bool.true_and] at h
          cases hto : v.getItemByPos T dst with
          | none =>
            rw [hto] at h
            cases hplan : v.planItem T R srcItem dst false with
            | error res => rfl
            | ok plan =>
              rw [hplan] at h
              cases h
          | some dstItem =>
            rw [hto] at h
            dsimp only at h ⊢
            unfold swapWith
            split
            · rfl
            · next hoff =>
              simp only [Bool.or_eq_true, not_or, Bool.not_eq_true] at hoff
              obtain ⟨res, hres⟩ : ∃ res, v.planItem T R srcItem dst false = .error res :=
                planItem_worn hdst hto
              simp only [hoff.1, hoff.2, Bool.not_false, Bool.true_and] at h
              rw [hres]
              dsimp only
              unfold exchange
              split
              · next plan plan' hplan hplan' =>
                rw [hplan, hplan'] at h
                cases h
              · rfl

/-- An item of the bank that is equipped is no longer where it was. -/
theorem swapItem_changes (h : v.Apart T) {src : Pos} (hsrc : isBankPos src = true)
    (hdst : isEquipmentPos dst = true) (hequips : v.equipsAt T R src dst = true) :
    (v.swapItem T R src dst).stackAt T src ≠ v.stackAt T src := by
  obtain ⟨hown, hworn⟩ := not_bank_of_isEquipmentPos hdst
  unfold equipsAt at hequips
  unfold swapItem
  cases hat : v.getItemByPos T src with
  | none =>
    rw [hat] at hequips
    cases hequips
  | some srcItem =>
    rw [hat] at hequips
    have hsame : v.stackAt T src = some srcItem.stack := by
      unfold stackAt
      rw [hat, Option.map_some]
    dsimp only at hequips ⊢
    simp only [Bool.and_eq_true, Bool.not_eq_true'] at hequips
    obtain ⟨⟨⟨⟨⟨halive, hloot⟩, hstays⟩, hin⟩, hin'⟩, hplans⟩ := hequips
    rw [if_neg (by simp [halive, hloot, hstays]), if_neg (by simp [hin]), if_neg (by simp [hin'])]
    cases hto : v.getItemByPos T dst with
    | none =>
      rw [hto] at hplans
      cases hplan : v.planItem T R srcItem dst false with
      | error res =>
        rw [hplan] at hplans
        cases hplans
      | ok plan =>
        dsimp only
        rw [keepsBank_place (planItem_outside hworn hplan) src hsrc,
          stackAt_removeItem_self (hasPlace_of_getItemByPos hat), hsame]
        exact (Option.some_ne_none _).symm
    | some dstItem =>
      rw [hto] at hplans
      simp only [Bool.and_eq_true, Bool.not_eq_true'] at hplans
      obtain ⟨⟨⟨hloot', hstays'⟩, hplan⟩, hplan'⟩ := hplans
      obtain ⟨res, hres⟩ : ∃ res, v.planItem T R srcItem dst false = .error res :=
        planItem_worn hdst hto
      dsimp only
      unfold swapWith
      rw [if_neg (by simp [hloot', hstays']), hres]
      unfold exchange
      cases hto' : v.planSwap T R srcItem dst with
      | error res =>
        rw [hto'] at hplan
        cases hplan
      | ok plan =>
        cases hback : v.planSwap T R dstItem src with
        | error res =>
          rw [hback] at hplan'
          cases hplan'
        | ok plan' =>
          obtain ⟨e, rfl, he⟩ := planItem_equipment hdst (planSwap_ok hto')
          rcases planItem_ok (planSwap_ok hback) with ⟨hinv, -⟩ | ⟨-, -, dest, rfl, hdest⟩ |
            ⟨hequip, -⟩
          · rw [not_bank_of_isInventoryPos hinv] at hsrc
            cases hsrc
          · apply equipped_changes h hsrc hat (canEquipItem_pos he) hto hworn
            intro c hc hbag
            exact ((canBankItem_asked (isContainer_of_isBankPos hsrc) hdest c hc).bag hbag).2
          · rw [(not_bank_of_isEquipmentPos hequip).2] at hsrc
            cases hsrc

theorem handleAutoEquipItemSlot_keepsBank_iff (h : v.Apart T) (guid : ℕ) (dstslot : Fin 256) :
    KeepsBank T v (v.handleAutoEquipItemSlot T R guid dstslot) ↔
      v.reachesBank T R (.autoEquipItemSlot guid dstslot) = false := by
  unfold handleAutoEquipItemSlot reachesBank
  dsimp only
  by_cases hdst : isEquipmentPos (inventorySlotBag0, dstslot) = true
  · rw [hdst, Bool.true_and]
    simp only [Bool.not_true, Bool.false_eq_true, if_false]
    cases hguid : v.posByGuid T guid with
    | none => simp
    | some src =>
      have hworn := (not_bank_of_isEquipmentPos hdst).2
      dsimp only
      by_cases hsrc : isBankPos src = true
      · have hne : src ≠ (inventorySlotBag0, dstslot) := by
          rintro rfl
          rw [hworn] at hsrc
          cases hsrc
        rw [if_neg hne, hsrc, Bool.true_and]
        constructor
        · intro hkept
          rw [Bool.eq_false_iff]
          intro hequips
          exact swapItem_changes h hsrc hdst hequips (hkept src hsrc)
        · intro hno
          rw [swapItem_of_not_equipsAt hdst hno]
          exact .refl v
      · have hsrc' := Bool.eq_false_iff.mpr hsrc
        rw [hsrc', Bool.false_and]
        simp only [iff_true]
        split
        · exact .refl v
        · exact swapItem_keepsBank hsrc' hworn
  · simp [hdst]

/-! ## Storing -/

theorem storesIn_none {src : Pos} {dstbag : Fin 256} (h : v.storesIn T R src dstbag = none) :
    v.handleAutoStoreBagItem T R src dstbag = v := by
  unfold storesIn at h
  unfold handleAutoStoreBagItem
  cases hat : v.getItemByPos T src with
  | none => rfl
  | some item =>
    rw [hat] at h
    dsimp only at h ⊢
    split
    · rfl
    · next hvalid =>
      rw [if_neg hvalid] at h
      split
      · rfl
      · next hbag =>
        rw [if_neg hbag] at h
        split
        · rfl
        · next hoff =>
          rw [if_neg hoff] at h
          split
          · next dest hdest =>
            rw [hdest] at h
            dsimp only at h
            split
            · rfl
            · next hsame =>
              rw [if_neg hsame] at h
              cases h
          · rfl

theorem storesIn_some {src : Pos} {dstbag : Fin 256}
    (h : v.storesIn T R src dstbag = some dest) :
    ∃ item, v.getItemByPos T src = some item ∧ v.isValidPos T (dstbag, nullSlot) = true ∧
      isBagPos src = false ∧ v.canStoreItem T item (dstbag, nullSlot) false = (.ok, dest) ∧
      (∀ c, dest = [c] → c.pos ≠ src) ∧
      v.handleAutoStoreBagItem T R src dstbag = storeItem T item dest (v.removeItem T src) := by
  unfold storesIn at h
  unfold handleAutoStoreBagItem
  cases hat : v.getItemByPos T src with
  | none =>
    rw [hat] at h
    cases h
  | some item =>
    rw [hat] at h
    dsimp only at h ⊢
    split at h
    · cases h
    · next hvalid =>
      split at h
      · cases h
      · next hbag =>
        split at h
        · cases h
        · next hoff =>
          split at h
          · next dest' hdest =>
            split at h
            · cases h
            · next hsame =>
              cases h
              refine ⟨item, rfl, ?_, Bool.eq_false_iff.mpr hbag, hdest, ?_, ?_⟩
              · simpa using hvalid
              · rintro c rfl hc
                simp [hc] at hsame
              · rw [if_neg hvalid, if_neg hbag, if_neg hoff]
                simpa only [hdest] using if_neg hsame
          · cases h

theorem Asked.not_bag (h : Asked isStorePos p q) (hp : isSpecific p = false) :
    isBagPos q = false := by
  rw [Bool.eq_false_iff]
  intro hq
  obtain ⟨hown, hslot⟩ := isBagPos_iff.mp hq
  rcases h with ⟨hno, -⟩ | ⟨hbag, heq⟩ | h
  · rw [hp] at hno
    cases hno
  · exact absurd (heq.symm.trans hown) (bagSlot_ne_bag0 hbag)
  · have hbag0 : isInventoryBagSlot inventorySlotBag0 = false := by decide
    simp only [isStorePos, hown, hbag0, decide_true, Bool.true_and, Bool.or_false, isInventorySlot,
      isKeyringSlot, Bool.or_eq_true, Bool.and_eq_true, decide_eq_true_eq] at h
    simp only [isBagSlot, isInventoryBagSlot, isBankBagSlot, Bool.or_eq_true, Bool.and_eq_true,
      decide_eq_true_eq] at hslot
    omega

theorem isContainer_of_isValidPos {bag slot : Fin 256} (h : v.isValidPos T (bag, slot) = true) :
    isContainer bag = true := by
  unfold isValidPos at h
  split at h
  · next hnull => simp [isContainer, show bag = nullBag from hnull]
  · split at h
    · next hown => simp [isContainer, show bag = inventorySlotBag0 from hown]
    · split at h
      · next hbag => simp [isContainer, show isBagSlot bag = true from hbag]
      · cases h

theorem stackAt_removeItem (h : v.getItemByPos T p = some a) (hp : isBagPos p = false) :
    (v.removeItem T p).stackAt T = Function.update (v.stackAt T) p none := by
  unfold removeItem
  rw [h]
  exact stackAt_setItem (hasPlace_of_getItemByPos h) hp none

/-- An item that is taken out of its place and stored is not as it was, but where it is put back as a
whole. -/
theorem Planned.moves {src : Pos} {parts : List (Pos × ℕ)}
    (h : Planned T v item view (Place T v item view kind p) item.count parts ⟨dest, 0⟩)
    (hstores : Lib.Stores (fun _ => True) Stack.entry Stack.count Stack.guid item.entry item.guid (amounts dest)
      ((v.removeItem T src).held T) ((storeItem T item dest (v.removeItem T src)).held T))
    (hempty : (v.removeItem T src).stackAt T src = none) (haway : ∀ c, dest = [c] → c.pos ≠ src) :
    (storeItem T item dest (v.removeItem T src)).stackAt T src ≠ some item.stack := by
  intro hsame
  have hdest : dest = parts.map part := h.dest_eq
  have hpos : (amounts dest).map Prod.fst = parts.map Prod.fst := by
    rw [amounts_pos, hdest, map_part_pos]
  by_cases hmem : src ∈ parts.map Prod.fst
  · obtain ⟨c, hc, rfl⟩ := List.mem_map.mp hmem
    have hamount : (c.1, c.2 % 256) ∈ amounts dest := by
      rw [hdest]
      refine List.mem_map.mpr ⟨part c, List.mem_map_of_mem hc, ?_⟩
      rw [part_count]
      rfl
    have hsingle : parts = [c] → False := by
      intro hone
      rw [hone] at hdest
      exact haway (part c) hdest rfl
    rcases hstores.mem (hpos ▸ h.fits.apart) _ hamount trivial with ⟨a, b, ha, -⟩ | ⟨-, b, hb, -, hsize, -⟩
    · cases ha.symm.trans hempty
    · have hb' := Option.some.inj (hb.symm.trans hsame)
      rw [hb'] at hsize
      have hle : item.count ≤ c.2 := by
        change item.count = c.2 % 256 at hsize
        rw [hsize]
        exact Nat.mod_le ..
      have hsum := h.sum
      apply hsingle
      rcases Nat.eq_zero_or_pos item.count with hzero | hcount
      · have hshort := h.short hzero
        obtain ⟨d, hd⟩ := List.length_eq_one_iff.mp (le_antisymm hshort (List.length_pos_of_mem hc))
        rw [hd] at hc ⊢
        rw [List.mem_singleton.mp hc]
      · exact eq_singleton_of_sum_le (h.pos (h.stackable_pos hcount) hcount) hc (by omega)
  · have hkept := hstores.eq_of_not_mem (hpos ▸ hmem)
    cases hsame.symm.trans (hkept.trans hempty)

theorem handleAutoStoreBagItem_keepsBank_iff (src : Pos) (dstbag : Fin 256) :
    KeepsBank T v (v.handleAutoStoreBagItem T R src dstbag) ↔
      v.reachesBank T R (.autoStoreBagItem src dstbag) = false := by
  unfold reachesBank
  dsimp only
  cases hplan : v.storesIn T R src dstbag with
  | none =>
    rw [storesIn_none hplan]
    simp
  | some dest =>
    obtain ⟨item, hat, hvalid, hbag, hcan, haway, heq⟩ := storesIn_some hplan
    have hcontainer : isContainer dstbag = true := isContainer_of_isValidPos hvalid
    have hspecific : isSpecific (dstbag, nullSlot) = false := by simp [isSpecific]
    obtain ⟨parts, hparts⟩ := canStoreItem_planned hcontainer hcan
    have hasked := canStoreItem_asked hcontainer hcan
    have hremoved := stackAt_removeItem hat hbag
    have hempty : (v.removeItem T src).stackAt T src = none := by
      rw [hremoved, Function.update_self]
    have hplaces : ∀ q, v.HasPlace T q → (v.removeItem T src).HasPlace T q := by
      intro q hq
      unfold removeItem
      rw [hat]
      exact hq.setItem hbag none
    have hstores := hparts.stores hplaces fun c hc hbagpos => by
      rw [(hasked c hc).not_bag hspecific] at hbagpos
      cases hbagpos
    have hsame : v.stackAt T src = some item.stack := by
      unfold stackAt
      rw [hat, Option.map_some]
    rw [heq]
    dsimp only
    by_cases hsrc : isBankPos src = true
    · rw [hsrc, Bool.true_or]
      refine ⟨fun hkept => ?_, fun hno => by cases hno⟩
      exact absurd ((hkept src hsrc).trans hsame) (hparts.moves hstores hempty haway)
    · have hother : ∀ q, isBankPos q = true → (v.removeItem T src).stackAt T q = v.stackAt T q := by
        intro q hq
        rw [hremoved]
        refine Function.update_of_ne ?_ ..
        rintro rfl
        exact hsrc hq
      have hapart : ((amounts dest).map Prod.fst).Nodup := by
        have hdest : dest = parts.map part := hparts.dest_eq
        rw [amounts_pos, hdest, map_part_pos]
        exact hparts.fits.apart
      have hmem : ∀ c ∈ dest, (c.pos, c.count.toNat) ∈ amounts dest := by
        intro c hc
        exact List.mem_map.mpr ⟨c, hc, rfl⟩
      rw [Bool.eq_false_iff.mpr hsrc, Bool.false_or, List.any_eq_false]
      constructor
      · intro hkept c hc hchanged
        simp only [Bool.and_eq_true, Bool.or_eq_true, decide_eq_true_eq] at hchanged
        obtain ⟨hbank, hchanged⟩ := hchanged
        have hfinal := (hkept c.pos hbank).trans (hother c.pos hbank).symm
        rcases hstores.mem hapart _ (hmem c hc) trivial with ⟨a, b, ha, hb, -, -, hgrown⟩ | ⟨hnone, b, hb, -⟩
        · have hab := Option.some.inj (hb.symm.trans (hfinal.trans ha))
          rw [hab] at hgrown
          rcases hchanged with hcount | hfree
          · apply hcount
            apply UInt8.toNat_inj.mp
            change a.count = a.count + c.count.toNat at hgrown
            rw [UInt8.toNat_zero]
            omega
          · have hsome := (hother c.pos hbank).symm.trans ha
            unfold stackAt at hsome
            rw [Option.isNone_iff_eq_none.mp hfree] at hsome
            cases hsome
        · cases hb.symm.trans (hfinal.trans hnone)
      · intro hno q hq
        rw [← hother q hq]
        by_cases hin : q ∈ (amounts dest).map Prod.fst
        · obtain ⟨c, hc, rfl⟩ := List.mem_map.mp (amounts_pos dest ▸ hin)
          have hquiet := hno c hc
          simp only [hq, Bool.true_and, Bool.or_eq_true, decide_eq_true_eq, not_or, not_not,
            Bool.not_eq_true] at hquiet
          rcases hstores.mem hapart _ (hmem c hc) trivial with
            ⟨a, b, ha, hb, hentry, hguid, hgrown⟩ | ⟨hnone, -⟩
          · have hab : b = a := by
              ext
              · exact hguid
              · exact hentry
              · rw [hgrown, hquiet.1]
                exact Nat.add_zero _
            rw [hab] at hb
            exact hb.trans ha.symm
          · have hnone' := (hother c.pos hq).symm.trans hnone
            unfold stackAt at hnone'
            rw [Option.map_eq_none_iff.mp hnone'] at hquiet
            cases hquiet.2
        · exact hstores.eq_of_not_mem hin

/-! ## Handlers -/

theorem handleSplitItem_keepsBank_iff (src dst : Pos) (count : UInt8) :
    KeepsBank T v (v.handleSplitItem T R src dst count) ↔
      v.reachesBank T R (.splitItem src dst count) = false := by
  unfold handleSplitItem reachesBank
  by_cases hne : src = dst ∨ count = 0
  · rcases hne with rfl | rfl <;> simp
  · obtain ⟨hne, hcount⟩ := not_or.mp hne
    by_cases hvalid : v.isValidPos T src = true ∧ v.isValidPos T dst = true
    · rw [if_neg (by simp [hne, hcount]), if_neg (by simp [hvalid.1, hvalid.2])]
      simp only [hne, hcount, hvalid.1, hvalid.2, ne_eq, not_false_eq_true, decide_true,
        Bool.true_and]
      cases hplan : v.splitPlan T R src dst count.toNat with
      | none => simpa using keepsBank_of_items (splitPlan_none hplan)
      | some plan =>
        rw [splitItem_keepsBank_iff hcount hvalid.2 hplan]
        split
        · simp
        · rfl
    · simp only [not_and_or, Bool.not_eq_true] at hvalid
      rcases hvalid with hvalid | hvalid <;> simp [hvalid]

theorem swap_keepsBank {session : Session} (hbank : session.canUseBank = false) {src : Pos}
    (hsrc : session.barred src = false) (hdst : session.barred dst = false) :
    KeepsBank T v (v.swapItem T R src dst) := by
  simp only [Session.barred, hbank, Bool.not_false, Bool.and_true] at hsrc hdst
  exact swapItem_keepsBank hsrc hdst

/-- **Without a banker the bank changes by the packets that reach it, and by no others.** -/
theorem handle_keepsBank_iff (h : v.Apart T) {session : Session} (hbank : session.canUseBank = false)
    (packet : Packet) :
    KeepsBank T v (v.handle T R session packet) ↔ v.reachesBank T R packet = false := by
  cases packet with
  | splitItem src dst count => exact handleSplitItem_keepsBank_iff src dst count
  | autoEquipItemSlot item dstslot => exact handleAutoEquipItemSlot_keepsBank_iff h item dstslot
  | autoEquipItem src => exact autoEquipItem_keepsBank_iff h src
  | autoStoreBagItem src dstbag => exact handleAutoStoreBagItem_keepsBank_iff src dstbag
  | swapInvItem srcslot dstslot =>
    refine ⟨fun _ => rfl, fun _ => ?_⟩
    show KeepsBank T v (v.handleSwapInvItem T R session srcslot dstslot)
    unfold handleSwapInvItem
    dsimp only
    split
    · exact .refl v
    · split
      · exact .refl v
      · split
        · exact .refl v
        · next hbarred =>
          split
          · exact .refl v
          · simp only [Bool.or_eq_true, not_or, Bool.not_eq_true] at hbarred
            exact swap_keepsBank hbank hbarred.1 hbarred.2
  | swapItem src dst =>
    refine ⟨fun _ => rfl, fun _ => ?_⟩
    show KeepsBank T v (v.handleSwapItem T R session src dst)
    unfold handleSwapItem
    split
    · exact .refl v
    · split
      · exact .refl v
      · split
        · exact .refl v
        · next hbarred =>
          simp only [Bool.or_eq_true, not_or, Bool.not_eq_true] at hbarred
          exact swap_keepsBank hbank hbarred.1 hbarred.2
  | autoBankItem src => simp [handle, handleAutoBankItem, hbank, reachesBank]
  | autoStoreBankItem src => simp [handle, handleAutoStoreBankItem, hbank, reachesBank]

/-! ## A split into the bank -/

/-- A template of items that stack to 20. -/
def cloth : ItemTemplate where
  itemClass := 7
  subClass := 5
  inventoryType := .nonEquip
  bonding := .noBind
  bagFamily := 0
  stackable := 20
  maxCount := 0
  containerSlots := 0
  socketed := false
  isGem := false

/-- Rules that refuse nothing. -/
def freeRules : Rules where
  getClass := 1
  canDualWield := false
  canUseItem _ _ := .ok
  refusesEquip _ _ := none
  refusesUnique _ _ _ _ := none
  refusesUnequip _ _ := none

/-- Ten pieces of cloth in the first slot of the backpack. -/
def clothCarrier : Player where
  guid := 1
  isAlive := true
  items slot := if slot = 23 then some ⟨100, 2589, 10, 1, false, false, [], fun _ => none⟩ else none
  bankBagSlots := 0
  nextGuid := 101

theorem clothCarrier_apart : clothCarrier.Apart fun _ => cloth := by
  have hone : ∀ p a, clothCarrier.stackAt (fun _ => cloth) p = some a →
      p = (inventorySlotBag0, 23) ∧ a.guid = 100 := by
    intro p a ha
    obtain ⟨item, hitem, rfl⟩ := Option.map_eq_some_iff.mp ha
    obtain ⟨hp, rfl⟩ := lone_item rfl rfl hitem
    exact ⟨hp, rfl⟩
  refine ⟨?_, ?_⟩
  · intro p q a b ha hb _
    rw [(hone p a ha).1, (hone q b hb).1]
  · intro p a ha
    rw [(hone p a ha).2]
    decide

/-- Without a banker, half of the stack is split into the first slot of the bank. -/
theorem splitItem_reaches_bank :
    ¬ KeepsBank (fun _ => cloth) clothCarrier
      (clothCarrier.handle (fun _ => cloth) freeRules ⟨false, false⟩ (.splitItem (255, 23) (255, 39) 5)) := by
  intro h
  exact absurd (h (255, 39) (by decide)) (by decide +kernel)

/-- A split within the backpack leaves the bank. -/
theorem splitItem_in_backpack :
    KeepsBank (fun _ => cloth) clothCarrier
      (clothCarrier.handle (fun _ => cloth) freeRules ⟨false, false⟩ (.splitItem (255, 23) (255, 24) 5)) :=
  (handle_keepsBank_iff clothCarrier_apart rfl _).mpr (by decide +kernel)

end Player

end Sunstrider.Inventory
