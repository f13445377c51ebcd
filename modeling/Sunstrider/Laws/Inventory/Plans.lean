import Sunstrider.Laws.Inventory.Searches
import Sunstrider.Laws.Inventory.Stores

/-!
# Plans of a storage

What `CanStoreItem` and `CanBankItem` answer. The positions that they find are different and have room
for what they take, and together they take the whole stack (`canStoreItem_planned`,
`canBankItem_planned`). The amounts of an answer are those of the plan as 8-bit numbers.
-/

namespace Sunstrider.Inventory

open Sunstrider.Lib (Fits)

variable {T : Templates}

/-- A part of a plan as it is answered. -/
def part (c : Pos × ℕ) : ItemPosCount := ⟨c.1, UInt8.ofNat c.2⟩

theorem part_count (c : Pos × ℕ) : (part c).count.toNat = c.2 % 256 := UInt8.toNat_ofNat'

theorem map_part_pos (plan : List (Pos × ℕ)) :
    (plan.map part).map ItemPosCount.pos = plan.map Prod.fst := by
  simp [part, Function.comp_def]

/-- The search goes on: there is something left to store, or no position is found yet. -/
def Search.Open (s : Search) : Prop := s.count = 0 → s.dest = []

namespace Player

variable {v : Player} {item : Item}

/-- The stacks that stand in the way of an item, which are all but its own. -/
def seen (T : Templates) (v : Player) (item : Item) (p : Pos) : Option Stack :=
  (v.otherItem T item.guid p).map Item.stack

/-- A plan that a search has made so far, for `n` of an item at places for it. What is swapped away is
not in the way, and is planned for already. -/
structure Planned (T : Templates) (v : Player) (item : Item) (view : Pos → Option Stack)
    (Q : Pos → Prop) (n : ℕ) (plan : List (Pos × ℕ)) (s : Search) : Prop where
  dest_eq : s.dest = plan.map part
  fits : Fits Stack.entry Stack.count (fun e => (T e).stackable) item.entry view plan
  allowed : ∀ c ∈ plan, Q c.1
  sum : (plan.map Prod.snd).sum + s.count = n
  pos : 0 < (T item.entry).stackable → 0 < n → ∀ c ∈ plan, 0 < c.2
  short : n = 0 → plan.length ≤ 1
  hidden : ∀ p, view p ≠ v.seen T item p → p ∈ plan.map Prod.fst

def Found (T : Templates) (v : Player) (item : Item) (view : Pos → Option Stack) (Q : Pos → Prop)
    (n : ℕ) (s : Search) : Prop :=
  ∃ plan, Planned T v item view Q n plan s

variable {view : Pos → Option Stack} {Q : Pos → Prop} {n : ℕ} {s : Search}

variable {plan : List (Pos × ℕ)}

theorem Planned.contains_iff (h : Planned T v item view Q n plan s) (p : Pos) :
    s.contains p = true ↔ p ∈ plan.map Prod.fst := by
  unfold Search.contains
  rw [h.dest_eq, ← map_part_pos]
  simp

theorem found_nil (v : Player) (item : Item) (Q : Pos → Prop) (n : ℕ) :
    Found T v item (v.seen T item) Q n ⟨[], n⟩ := by
  refine ⟨[], rfl, ⟨List.nodup_nil, ?_⟩, ?_, ?_, ?_, fun _ => Nat.zero_le _, ?_⟩
  · intro c hc
    cases hc
  · intro c hc
    cases hc
  · simp
  · intro _ _ c hc
    cases hc
  · intro p hp
    exact absurd rfl hp

theorem Planned.plan_eq_nil (h : Planned T v item view Q n plan s) (hopen : s.Open)
    (hcount : s.count = 0) : plan = [] := by
  have hdest := h.dest_eq
  rw [hopen hcount] at hdest
  exact List.map_eq_nil_iff.mp hdest.symm

variable {m : ℕ}

theorem Planned.take (h : Planned T v item view Q n plan s) {p : Pos} (hnew : p ∉ plan.map Prod.fst)
    (hQ : Q p) (hmax : m ≤ (T item.entry).stackable) (hpos : 0 < (T item.entry).stackable → 0 < m)
    (hopen : s.Open) {view' : Pos → Option Stack} (hview : ∀ q, q ≠ p → view' q = view q)
    (hroom : ∀ a, view' p = some a → a.entry = item.entry ∧ a.count + m ≤ (T item.entry).stackable)
    : Planned T v item view' Q n (plan ++ [(p, min m s.count)]) (s.take p m) := by
  have hcontains : s.contains p = false := by
    rw [Bool.eq_false_iff]
    intro hp
    exact hnew ((h.contains_iff p).mp hp)
  have hle : min m s.count ≤ m := Nat.min_le_left ..
  unfold Search.take
  rw [hcontains]
  refine ⟨?_, ⟨?_, ?_⟩, ?_, ?_, ?_, ?_, ?_⟩
  · rw [List.map_append, ← h.dest_eq]
    rfl
  · rw [List.map_append]
    exact List.Nodup.append h.fits.apart (List.nodup_singleton _) (by simpa using hnew)
  · intro c hc
    rcases List.mem_append.mp hc with hc | hc
    · have hmem : c.1 ∈ plan.map Prod.fst := List.mem_map_of_mem hc
      have hne : c.1 ≠ p := fun heq => hnew (heq ▸ hmem)
      rw [hview c.1 hne]
      exact h.fits.room c hc
    · rw [List.mem_singleton.mp hc]
      refine ⟨hle.trans hmax, ?_⟩
      intro a ha
      obtain ⟨hentry, hcount⟩ := hroom a ha
      exact ⟨hentry, (Nat.add_le_add_left hle _).trans hcount⟩
  · intro c hc
    rcases List.mem_append.mp hc with hc | hc
    · exact h.allowed c hc
    · rw [List.mem_singleton.mp hc]
      exact hQ
  · have hsum := h.sum
    simp only [List.map_append, List.sum_append, List.map_cons, List.map_nil, List.sum_singleton]
    simp only [Bool.false_eq_true, if_false]
    omega
  · intro hstack hn c hc
    rcases List.mem_append.mp hc with hc | hc
    · exact h.pos hstack hn c hc
    · rw [List.mem_singleton.mp hc]
      refine lt_min (hpos hstack) (Nat.pos_of_ne_zero fun hcount => hn.ne ?_)
      have hsum := h.sum
      rw [h.plan_eq_nil hopen hcount, hcount] at hsum
      exact hsum
  · intro hn
    have hcount : s.count = 0 := by
      have hsum := h.sum
      omega
    rw [h.plan_eq_nil hopen hcount]
    exact le_rfl
  · intro q hq
    rw [List.map_append]
    by_cases hqp : q = p
    · rw [hqp]
      exact List.mem_append_right _ List.mem_cons_self
    · rw [hview q hqp] at hq
      exact List.mem_append_left _ (h.hidden q hq)

theorem space_room {merge : Bool} {p : Pos} (h : v.space T item merge p = some m) :
    m ≤ (T item.entry).stackable ∧ (0 < (T item.entry).stackable → 0 < m) ∧
      ∀ a, v.seen T item p = some a →
        a.entry = item.entry ∧ a.count + m ≤ (T item.entry).stackable := by
  unfold space at h
  unfold seen
  cases hat : v.otherItem T item.guid p with
  | none =>
    rw [hat] at h
    cases merge with
    | true => cases h
    | false =>
      cases h
      refine ⟨le_rfl, id, ?_⟩
      intro a ha
      cases ha
  | some dest =>
    rw [hat] at h
    dsimp only at h
    split at h
    · next hcond =>
      cases h
      simp only [Bool.and_eq_true, decide_eq_true_eq] at hcond
      refine ⟨Nat.sub_le .., fun _ => Nat.sub_pos_of_lt hcond.2.2, ?_⟩
      intro a ha
      cases ha
      refine ⟨hcond.2.1, ?_⟩
      show dest.count + _ ≤ _
      omega
    · cases h

theorem space_merge {p : Pos} (h : v.space T item true p = some m) : v.seen T item p ≠ none := by
  unfold space at h
  unfold seen
  cases hat : v.otherItem T item.guid p with
  | none =>
    rw [hat] at h
    cases h
  | some dest => exact Option.some_ne_none _

/-! ## Searches -/

/-- Where an item may be planned: the position that is asked for, the bag that is, and the places of a
kind. A slot of the key ring that is free takes keys only. -/
structure Place (T : Templates) (v : Player) (item : Item) (view : Pos → Option Stack)
    (kind : Pos → Bool) (p q : Pos) : Prop where
  hasPlace : v.HasPlace T q
  asked : isSpecific p = true ∧ q = p ∨ isBagSlot p.1 = true ∧ q.1 = p.1 ∨ kind q = true
  key : q.1 = inventorySlotBag0 → isKeyringSlot q.2 = true → view q = none →
    (T item.entry).isKey = true

variable {kind : Pos → Bool} {p : Pos} {swap : Bool}

theorem kept_found (n : ℕ) :
    Kept T v item kind p (Found T v item view (Place T v item view kind p) n) Search.Open where
  going hcount := fun hzero => absurd hzero hcount
  take := by
    rintro s q m merge ⟨plan, hplan⟩ hopen hcontains hspace hq
    have hnew : q ∉ plan.map Prod.fst := by
      intro hmem
      rw [(hplan.contains_iff q).mpr hmem] at hcontains
      cases hcontains
    have hseen : view q = v.seen T item q := by
      by_contra hne
      exact hnew (hplan.hidden q hne)
    obtain ⟨hmax, hpos, hroom⟩ := space_room hspace
    have hplace : Place T v item view kind p q := by
      refine ⟨hq.hasPlace, .inr hq.asked, ?_⟩
      intro hown hring hnone
      apply (hq.key hown hring).resolve_left
      rintro rfl
      rw [hseen] at hnone
      exact space_merge hspace hnone
    refine ⟨_, hplan.take hnew hplace hmax hpos hopen (fun _ _ => rfl) ?_⟩
    rw [hseen]
    exact hroom

/-- What stands in the way of an item, where the item at the position goes elsewhere. -/
def cleared (T : Templates) (v : Player) (item : Item) (p : Pos) (swap : Bool) : Pos → Option Stack :=
  if isSpecific p && swap then Function.update (v.seen T item) p none else v.seen T item

theorem cleared_of_not_specific (h : isSpecific p = false) :
    cleared T v item p swap = v.seen T item := by
  unfold cleared
  rw [h]
  rfl

/-- The search of one position in which nothing is in the way. -/
def freeSlot (T : Templates) (v : Player) (item : Item) (p : Pos) (s : Search) : Except InventoryResult Search :=
  if p.1 = inventorySlotBag0 then
    if isKeyringSlot p.2 && !(T item.entry).isKey then .error .itemDoesntGoIntoBag
    else if (74 ≤ p.2.val && p.2.val < 86) || 118 ≤ p.2.val then .error .itemDoesntGoIntoBag
    else .ok (s.take p (T item.entry).stackable)
  else
    match v.getItemByPos T (inventorySlotBag0, p.1) with
    | none => .error .itemDoesntGoIntoBag
    | some bag =>
      if itemCanGoIntoBag (T item.entry) (T bag.entry) then
        .ok (s.take p (T item.entry).stackable)
      else .error .itemDoesntGoIntoBag

theorem specificSlot_free (h : v.otherItem T item.guid p = none ∨ swap = true) (s : Search) :
    v.canStoreItemInSpecificSlot T item p swap s = v.freeSlot T item p s := by
  unfold canStoreItemInSpecificSlot
  rcases h with hnone | rfl
  · rw [hnone]
    rfl
  · cases v.otherItem T item.guid p <;> rfl

theorem freeSlot_cases {s s' : Search} (h : v.freeSlot T item p s = .ok s') :
    (p.1 = inventorySlotBag0 → isKeyringSlot p.2 = true → (T item.entry).isKey = true) ∧
      s' = s.take p (T item.entry).stackable := by
  unfold freeSlot at h
  by_cases hown : p.1 = inventorySlotBag0
  · rw [if_pos hown] at h
    split at h
    · cases h
    · next hkey =>
      split at h
      · cases h
      · cases h
        refine ⟨fun _ hring => ?_, rfl⟩
        simpa [hring] using hkey
  · rw [if_neg hown] at h
    refine ⟨fun hp => absurd hp hown, ?_⟩
    split at h
    · cases h
    · split at h
      · cases h
        rfl
      · cases h

theorem specificSlot_cases {s s' : Search}
    (h : v.canStoreItemInSpecificSlot T item p swap s = .ok s') :
    (∃ dest, v.otherItem T item.guid p = some dest ∧ swap = false ∧ dest.entry = item.entry ∧
        dest.count < (T item.entry).stackable ∧
        s' = s.take p ((T item.entry).stackable - dest.count)) ∨
      (v.otherItem T item.guid p = none ∨ swap = true) ∧
        (p.1 = inventorySlotBag0 → isKeyringSlot p.2 = true → (T item.entry).isKey = true) ∧
        s' = s.take p (T item.entry).stackable := by
  cases hat : v.otherItem T item.guid p with
  | none =>
    rw [specificSlot_free (.inl hat)] at h
    exact .inr ⟨.inl rfl, freeSlot_cases h⟩
  | some dest =>
    cases swap with
    | true =>
      rw [specificSlot_free (.inr rfl)] at h
      exact .inr ⟨.inr rfl, freeSlot_cases h⟩
    | false =>
      unfold canStoreItemInSpecificSlot at h
      rw [hat] at h
      dsimp only at h
      split at h
      · cases h
      · next hentry =>
        split at h
        · cases h
        · next hcount =>
          cases h
          exact .inl ⟨dest, rfl, rfl, not_not.mp hentry, not_le.mp hcount, rfl⟩

theorem found_specific {kind : Pos → Bool} {n : ℕ} {s : Search} (hspecific : isSpecific p = true)
    (hp : v.HasPlace T p) (h : v.canStoreItemInSpecificSlot T item p swap ⟨[], n⟩ = .ok s) :
    Found T v item (cleared T v item p swap)
      (Place T v item (cleared T v item p swap) kind p) n s := by
  obtain ⟨plan, hplan⟩ := found_nil (T := T) v item
    (Place T v item (cleared T v item p swap) kind p) n
  have hnew : p ∉ plan.map Prod.fst := by
    rw [← hplan.contains_iff]
    exact Bool.false_ne_true
  have hopen : (⟨[], n⟩ : Search).Open := fun _ => rfl
  have hview : ∀ q, q ≠ p → cleared T v item p swap q = v.seen T item q := by
    intro q hq
    unfold cleared
    split
    · exact Function.update_of_ne hq ..
    · rfl
  rcases specificSlot_cases h with ⟨dest, hdest, hswap, hentry, hcount, hs⟩ | ⟨hfree, hkey, hs⟩
  · have hat : cleared T v item p swap p = some dest.stack := by
      simp [cleared, hswap, seen, hdest]
    rw [hs]
    refine ⟨_, hplan.take hnew ⟨hp, .inl ⟨hspecific, rfl⟩, ?_⟩ (Nat.sub_le ..) ?_ hopen hview ?_⟩
    · intro _ _ hnone
      rw [hat] at hnone
      cases hnone
    · intro _
      omega
    · intro a ha
      rw [hat] at ha
      cases ha
      refine ⟨hentry, ?_⟩
      show dest.count + _ ≤ _
      omega
  · have hnone : cleared T v item p swap p = none := by
      rcases hfree with hfree | hfree
      · unfold cleared
        split
        · exact Function.update_self ..
        · simp [seen, hfree]
      · simp [cleared, hspecific, hfree]
    rw [hs]
    refine ⟨_, hplan.take hnew ⟨hp, .inl ⟨hspecific, rfl⟩, fun hown hring _ => hkey hown hring⟩ le_rfl id hopen
      hview ?_⟩
    intro a ha
    rw [hnone] at ha
    cases ha

/-! ## Answers -/

theorem found_start (n : ℕ) (h : isSpecific p = false) :
    Found T v item (cleared T v item p swap) (Place T v item (cleared T v item p swap) kind p) n
      ⟨[], n⟩ := by
  rw [cleared_of_not_specific h]
  exact found_nil v item _ n

variable {dest : List ItemPosCount}

theorem Found.all (h : Found T v item view Q n s) (hdest : s.dest = dest) (hcount : s.count = 0) :
    Found T v item view Q n ⟨dest, 0⟩ := by
  have hs : (⟨dest, 0⟩ : Search) = s := by
    rw [← hdest, ← hcount]
  rw [hs]
  exact h

/-- **What `CanStoreItem` answers**: places in the inventory, or those that are asked for. -/
theorem canStoreItem_planned (hp : isContainer p.1 = true)
    (h : v.canStoreItem T item p swap = (.ok, dest)) :
    Found T v item (cleared T v item p swap)
      (Place T v item (cleared T v item p swap) isStorePos p) item.count ⟨dest, 0⟩ := by
  rcases Kept.canStoreItemFrom (fun n => kept_found n) hp
    (fun hnot n => ⟨found_start n hnot, fun _ => rfl⟩)
    (fun hspecific hat n s => found_specific hspecific hat) h with
    ⟨hres, -⟩ | ⟨n, s, hs, hdest, hok⟩
  · exact absurd rfl hres
  · obtain ⟨hcount, rfl⟩ := hok rfl
    exact hs.all hdest hcount

/-- **What `CanBankItem` answers**: places in the bank, or those that are asked for. -/
theorem canBankItem_planned {R : Rules} (hp : isContainer p.1 = true)
    (hat : isSpecific p = true → v.HasPlace T p) (h : v.canBankItem T R item p swap = (.ok, dest)) :
    Found T v item (cleared T v item p swap)
      (Place T v item (cleared T v item p swap) isBankStorePos p) item.count ⟨dest, 0⟩ := by
  rcases Kept.canBankItemFrom (kept_found item.count) hp
    (fun hnot => ⟨found_start item.count hnot, fun _ => rfl⟩)
    (fun hspecific _ s => found_specific hspecific (hat hspecific)) h with
    ⟨hres, -⟩ | ⟨s, hs, hdest, hok⟩
  · exact absurd rfl hres
  · exact hs.all hdest (hok rfl)

end Player

end Sunstrider.Inventory
