import Sunstrider.Lib.Graph
import Sunstrider.Lib.Map
import Sunstrider.Lib.Run
import Sunstrider.Loots.Loot
import Sunstrider.Loots.LootMgr

/-!
# Quest items of loot templates

What `Process` can come to is `Reachable`: it resolves references in the store of the reference templates.
The searches for quest items resolve them in the store that they search. Where both say the same of the
references that `Process` comes to, the searches find what it can come to (`has_yields`), and so the quest
items of the loot that is filled are of entries that they look for (`questItem_reachable`).
-/

namespace Sunstrider.LootMgr

open Sunstrider.Lib

/-! ## What can be come to -/

section

variable (refs : LootTemplateMap)

/-- The entries that `Process` can come to from a template, and there in one group only if a number is
given. -/
inductive Reachable : LootTemplate → ℕ → LootStoreItem → Prop
  | entry {t : LootTemplate} {item : LootStoreItem} (h : item ∈ t.entries) : Reachable t 0 item
  | reference {t referenced : LootTemplate} {item e : LootStoreItem} (h : item ∈ t.entries)
      (hreference : 0 < item.reference) (hlookup : refs.lookup item.reference = some referenced)
      (he : Reachable referenced item.groupid e) : Reachable t 0 e
  | grouped {t : LootTemplate} {g : LootGroup} {item : LootStoreItem} (hg : some g ∈ t.groups)
      (h : item ∈ g.items) : Reachable t 0 item
  | group {t : LootTemplate} {groupId : ℕ} {g : LootGroup} {item : LootStoreItem} (hne : groupId ≠ 0)
      (hg : t.group groupId = some g) (h : item ∈ g.items) : Reachable t groupId item

/-- The template of the first number has a reference to that of the second. Plain entries, with the
reference 0, are none. -/
def Refers (a b : ℕ) : Prop :=
  ∃ t, refs.lookup a = some t ∧ (∃ item ∈ t.entries, 0 < item.reference ∧ item.reference = b) ∧
    b ∈ refs.keys

/-- In `store` the references come to the same templates as in `refs`. -/
def Agrees (store : LootTemplateMap) (t : LootTemplate) (groupId : ℕ) : Prop :=
  ∀ e, Reachable refs t groupId e → 0 < e.reference → store.lookup e.reference = refs.lookup e.reference

/-- The number is that of a group, or beyond all groups. -/
def LootTemplate.HasGroup (t : LootTemplate) (groupId : ℕ) : Prop :=
  groupId = 0 ∨ t.groups.length < groupId ∨ (t.group groupId).isSome

/-- No reference that `Process` comes to names a group that is missing. -/
def NamesGroups (t : LootTemplate) (groupId : ℕ) : Prop :=
  ∀ e, Reachable refs t groupId e → 0 < e.reference →
    ∀ referenced, refs.lookup e.reference = some referenced → referenced.HasGroup e.groupid

end

variable {refs : LootTemplateMap}

/-- A bound for the depth of recursion, where the references go around in no circle. -/
theorem exists_depth (h : Acyclic (Refers refs)) :
    ∃ (rank : ℕ → ℕ) (bound : ℕ), (∀ a b, Refers refs a b → rank b < rank a) ∧
      ∀ a ∈ refs.keys, rank a < bound := by
  obtain ⟨rank, hrank⟩ := exists_rank refs.keys.toFinset
    (fun a b hab => List.mem_toFinset.mpr hab.choose_spec.2.2) h
  refine ⟨rank, refs.keys.toFinset.sup rank + 1, hrank, fun a ha => ?_⟩
  exact Nat.lt_succ_of_le (Finset.le_sup (List.mem_toFinset.mpr ha))

variable {referenced t : LootTemplate} {item : LootStoreItem}

theorem Agrees.of_reference {store : LootTemplateMap} (h : Agrees refs store t 0)
    (hitem : item ∈ t.entries) (hreference : 0 < item.reference)
    (hlookup : refs.lookup item.reference = some referenced) :
    Agrees refs store referenced item.groupid :=
  fun e he => h e (.reference hitem hreference hlookup he)

theorem NamesGroups.of_reference (h : NamesGroups refs t 0) (hitem : item ∈ t.entries)
    (hreference : 0 < item.reference) (hlookup : refs.lookup item.reference = some referenced) :
    NamesGroups refs referenced item.groupid :=
  fun e he => h e (.reference hitem hreference hlookup he)

variable {g : LootGroup}

theorem LootGroup.reference_eq_zero (h : item ∈ g.items) : item.reference = 0 := by
  obtain ⟨i, -, rfl⟩ := List.mem_map.mp h
  exact i.2

variable {wanted : LootStoreItem → Bool}

theorem LootGroup.has_iff : g.has wanted = true ↔ ∃ item ∈ g.items, wanted item = true := by
  simp only [has, items, List.map_append, Bool.or_eq_true, List.any_eq_true, List.mem_append,
    List.mem_map]
  constructor
  · rintro (⟨i, hi, hw⟩ | ⟨i, hi, hw⟩)
    · exact ⟨i, .inl ⟨i, hi, rfl⟩, hw⟩
    · exact ⟨i, .inr ⟨i, hi, rfl⟩, hw⟩
  · rintro ⟨_, ⟨i, hi, rfl⟩ | ⟨i, hi, rfl⟩, hw⟩
    · exact .inl ⟨i, hi, hw⟩
    · exact .inr ⟨i, hi, hw⟩

/-! ## The searches -/

/-- What a search is after. -/
def Finds (refs : LootTemplateMap) (wanted : LootStoreItem → Bool) (t : LootTemplate) (groupId : ℕ) :
    Prop :=
  ∃ e, Reachable refs t groupId e ∧ e.reference = 0 ∧ wanted e = true

variable {groupId : ℕ}

theorem finds_group (h : groupId ≠ 0) :
    Finds refs wanted t groupId ↔ ∃ g, t.group groupId = some g ∧ g.has wanted = true := by
  constructor
  · rintro ⟨e, he, -, hw⟩
    cases he with
    | group _ hg hitem => exact ⟨_, hg, LootGroup.has_iff.mpr ⟨e, hitem, hw⟩⟩
    | entry => exact absurd rfl h
    | reference => exact absurd rfl h
    | grouped => exact absurd rfl h
  · rintro ⟨g, hg, hhas⟩
    obtain ⟨e, he, hw⟩ := LootGroup.has_iff.mp hhas
    exact ⟨e, .group h hg he, LootGroup.reference_eq_zero he, hw⟩

/-- What an entry without a group leads to. -/
def Leads (refs : LootTemplateMap) (wanted : LootStoreItem → Bool) (item : LootStoreItem) : Prop :=
  (item.reference = 0 ∧ wanted item = true) ∨
    (0 < item.reference ∧
      ∃ referenced, refs.lookup item.reference = some referenced ∧
        Finds refs wanted referenced item.groupid)

theorem finds_zero :
    Finds refs wanted t 0 ↔ (∃ item ∈ t.entries, Leads refs wanted item) ∨
      ∃ g, some g ∈ t.groups ∧ g.has wanted = true := by
  constructor
  · rintro ⟨e, he, hplain, hw⟩
    cases he with
    | entry hitem => exact .inl ⟨e, hitem, .inl ⟨hplain, hw⟩⟩
    | reference hitem hreference hlookup he =>
      exact .inl ⟨_, hitem, .inr ⟨hreference, _, hlookup, e, he, hplain, hw⟩⟩
    | grouped hg hitem => exact .inr ⟨_, hg, LootGroup.has_iff.mpr ⟨e, hitem, hw⟩⟩
    | group hne => exact absurd rfl hne
  · rintro (⟨item, hitem, hlead⟩ | ⟨g, hg, hhas⟩)
    · obtain ⟨hplain, hw⟩ | ⟨hreference, referenced, hlookup, e, he, hplain, hw⟩ := hlead
      · exact ⟨item, .entry hitem, hplain, hw⟩
      · exact ⟨e, .reference hitem hreference hlookup he, hplain, hw⟩
    · obtain ⟨e, he, hw⟩ := LootGroup.has_iff.mp hhas
      exact ⟨e, .grouped hg he, LootGroup.reference_eq_zero he, hw⟩

theorem has_step {store : LootTemplateMap} {missing : Except Fault Bool} {depth : ℕ}
    (hagrees : Agrees refs store t groupId) (hmissing : missing = .ok false ∨ t.HasGroup groupId)
    (hbelow : ∀ item ∈ t.entries, groupId = 0 → 0 < item.reference →
      ∀ referenced, refs.lookup item.reference = some referenced →
        Yields (referenced.has store wanted missing depth item.groupid) fun b =>
          b = true ↔ Finds refs wanted referenced item.groupid) :
    Yields (t.has store wanted missing (depth + 1) groupId) fun b =>
      b = true ↔ Finds refs wanted t groupId := by
  rw [LootTemplate.has]
  split_ifs with hgroup hlength
  · refine .ok ⟨fun h => absurd h Bool.false_ne_true, fun h => ?_⟩
    obtain ⟨g, hg, -⟩ := (finds_group hgroup).mp h
    rw [LootTemplate.group, List.getElem?_eq_none (by omega)] at hg
    cases hg
  · rw [finds_group hgroup]
    cases hg : t.group groupId with
    | none =>
      obtain rfl | hzero | hbeyond | hsome := hmissing
      · exact .ok (by simp)
      · exact absurd hzero hgroup
      · exact absurd hbeyond hlength
      · rw [hg] at hsome
        cases hsome
    | some g => exact .ok (by simp)
  · obtain rfl : groupId = 0 := not_not.mp hgroup
    refine Yields.bind (P := fun b => b = true ↔ ∃ item ∈ t.entries, Leads refs wanted item)
      (Yields.anyM t.entries fun item hitem => ?_) fun b hb => ?_
    · split_ifs with hreference
      · rw [hagrees item (.entry hitem) hreference]
        cases hlookup : refs.lookup item.reference with
        | none => exact .ok (by simp [Leads, hlookup, Nat.pos_iff_ne_zero.mp hreference])
        | some referenced =>
          refine (hbelow item hitem rfl hreference referenced hlookup).mono fun b hb => ?_
          rw [hb]
          simp [Leads, hlookup, hreference, Nat.pos_iff_ne_zero.mp hreference]
      · exact .ok (by simp [Leads, Nat.eq_zero_of_not_pos hreference])
    cases b with
    | true => exact .ok (by simp [finds_zero, ← hb])
    | false =>
      refine .ok ?_
      rw [finds_zero, ← hb, List.any_eq_true]
      simp only [Bool.false_eq_true, false_or]
      constructor
      · rintro ⟨_ | g, hg, hhas⟩
        · cases hhas
        · exact ⟨g, hg, hhas⟩
      · rintro ⟨g, hg, hhas⟩
        exact ⟨some g, hg, hhas⟩

section

variable {rank : ℕ → ℕ} (hrank : ∀ a b, Refers refs a b → rank b < rank a)

include hrank

theorem rank_lt_of_referenced (hlookup : refs.lookup item.reference = some referenced)
    {item' : LootStoreItem} (hitem' : item' ∈ referenced.entries) (hpos : 0 < item'.reference)
    (ht : refs.lookup item'.reference = some t) : rank item'.reference < rank item.reference := by
  refine hrank _ _ ⟨referenced, hlookup, ⟨item', hitem', hpos, rfl⟩, ?_⟩
  rw [← AList.mem_keys, ← AList.lookup_isSome, ht]
  rfl

/-- **A search finds what it is after**, where it resolves references as `Process` does, and where it can
do without a group that is missing or comes to none. -/
theorem has_yields {store : LootTemplateMap} {missing : Except Fault Bool} (depth : ℕ)
    (hdepth : ∀ item ∈ t.entries, 0 < item.reference →
      ∀ referenced, refs.lookup item.reference = some referenced → rank item.reference < depth)
    (hagrees : Agrees refs store t groupId)
    (hmissing : missing = .ok false ∨ (t.HasGroup groupId ∧ NamesGroups refs t groupId)) :
    Yields (t.has store wanted missing (depth + 1) groupId) fun b =>
      b = true ↔ Finds refs wanted t groupId := by
  induction depth generalizing t groupId with
  | zero =>
    refine has_step hagrees (hmissing.imp_right And.left) fun item hitem _ hreference referenced hlookup => ?_
    exact absurd (hdepth item hitem hreference referenced hlookup) (Nat.not_lt_zero _)
  | succ depth ih =>
    refine has_step hagrees (hmissing.imp_right And.left) ?_
    rintro item hitem rfl hreference referenced hlookup
    refine ih ?_ (hagrees.of_reference hitem hreference hlookup) ?_
    · intro item' hitem' hpos t' ht'
      have hlt := rank_lt_of_referenced hrank hlookup hitem' hpos ht'
      have hle := hdepth item hitem hreference referenced hlookup
      omega
    · refine hmissing.imp_right fun h => ⟨?_, h.2.of_reference hitem hreference hlookup⟩
      exact h.2 item (.entry hitem) hreference referenced hlookup

/-! ## Making loot -/

variable {σ : Type} {dice : Dice σ} {lootMode : ℕ}

/-- What comes into the loot has been come to. -/
def Adds (refs : LootTemplateMap) (t : LootTemplate) (groupId : ℕ) (before after : List LootStoreItem) :
    Prop :=
  ∀ e ∈ after, e ∈ before ∨ (Reachable refs t groupId e ∧ e.reference = 0)

omit hrank in
theorem LootGroup.process_adds {s : σ × List LootStoreItem} {e : LootStoreItem}
    (h : e ∈ (g.process dice s).2) : e ∈ s.2 ∨ e ∈ g.items := by
  rw [LootGroup.process] at h
  split at h
  · next item hitem dice' heq =>
    obtain h | h := List.mem_append.mp h
    · exact .inl h
    · rw [List.mem_singleton.mp h]
      exact .inr (hitem item rfl)
  · exact .inl h

omit hrank in
theorem Adds.trans {l₁ l₂ l₃ : List LootStoreItem} (h : Adds refs t groupId l₁ l₂)
    (h' : Adds refs t groupId l₂ l₃) : Adds refs t groupId l₁ l₃ := by
  intro e he
  obtain he | he := h' e he
  · exact h e he
  · exact .inr he

omit hrank in
theorem Adds.of_reference {l l' : List LootStoreItem} (h : Adds refs referenced item.groupid l l')
    (hitem : item ∈ t.entries) (hreference : 0 < item.reference)
    (hlookup : refs.lookup item.reference = some referenced) : Adds refs t 0 l l' :=
  fun e he => (h e he).imp_right fun hr => ⟨.reference hitem hreference hlookup hr.1, hr.2⟩

omit hrank in
theorem process_step {depth : ℕ} (s : σ × List LootStoreItem)
    (hbelow : ∀ item ∈ t.entries, 0 < item.reference →
      ∀ referenced, refs.lookup item.reference = some referenced → ∀ s,
        Yields (referenced.process dice refs lootMode depth item.groupid s) fun s' =>
          Adds refs referenced item.groupid s.2 s'.2) :
    Yields (t.process dice refs lootMode (depth + 1) groupId s) fun s' =>
      Adds refs t groupId s.2 s'.2 := by
  rw [LootTemplate.process]
  split_ifs with hgroup hlength
  · exact .ok fun e he => .inl he
  · cases hg : t.group groupId with
    | none => exact .ok fun e he => .inl he
    | some g =>
      refine .ok fun e he => ?_
      refine (LootGroup.process_adds he).imp_right fun hitem => ⟨.group hgroup hg hitem, ?_⟩
      exact LootGroup.reference_eq_zero hitem
  · obtain rfl : groupId = 0 := not_not.mp hgroup
    refine Yields.bind (P := fun s' => Adds refs t 0 s.2 s'.2) (Yields.foldlM _ (fun e he => .inl he) ?_)
      fun s' hs' => .ok ?_
    · intro s' item hitem hs'
      dsimp only
      split_ifs with hmode hhit hreference
      · exact .ok hs'
      · exact .ok hs'
      · cases hlookup : refs.lookup item.reference with
        | none => exact .ok hs'
        | some referenced =>
          refine Yields.foldlM _ hs' fun s'' _ _ hs'' => ?_
          refine (hbelow item hitem hreference referenced hlookup s'').mono fun s₃ hs₃ => ?_
          exact hs''.trans (hs₃.of_reference hitem hreference hlookup)
      · refine .ok (hs'.trans fun e he => (List.mem_append.mp he).imp_right fun h => ?_)
        rw [List.mem_singleton.mp h]
        exact ⟨.entry hitem, Nat.eq_zero_of_not_pos hreference⟩
    · refine List.foldlRecOn (motive := fun r : σ × List LootStoreItem => Adds refs t 0 s.2 r.2)
        t.groups _ hs' fun r hr group hmem => ?_
      cases group with
      | none => exact hr
      | some group =>
        refine hr.trans fun e he => (LootGroup.process_adds he).imp_right fun hitem => ?_
        exact ⟨.grouped hmem hitem, LootGroup.reference_eq_zero hitem⟩

/-- **`Process` comes to its end without a null pointer**, and adds only what can be come to. -/
theorem process_yields (depth : ℕ) (hdepth : ∀ item ∈ t.entries, 0 < item.reference →
      ∀ referenced, refs.lookup item.reference = some referenced → rank item.reference < depth)
    (s : σ × List LootStoreItem) :
    Yields (t.process dice refs lootMode (depth + 1) groupId s) fun s' =>
      Adds refs t groupId s.2 s'.2 := by
  induction depth generalizing t groupId s with
  | zero =>
    refine process_step s fun item hitem hreference referenced hlookup => ?_
    exact absurd (hdepth item hitem hreference referenced hlookup) (Nat.not_lt_zero _)
  | succ depth ih =>
    refine process_step s fun item hitem hreference referenced hlookup s => ih (fun item' hitem' hpos t' ht' => ?_) s
    have hlt := rank_lt_of_referenced hrank hlookup hitem' hpos ht'
    have hle := hdepth item hitem hreference referenced hlookup
    omega

end

/-! ## Stores -/

/-- The entries that can be come to from a template of a store. -/
def ReachableFrom (refs store : LootTemplateMap) (loot_id : ℕ) (e : LootStoreItem) : Prop :=
  ∃ t, store.lookup loot_id = some t ∧ Reachable refs t 0 e

/-- **The searches for quest items find what `Process` can come to.** References may lead anywhere, if
only not in circles; what is asked of them is that the store has the same templates for them as the store
of the reference templates, and, for the search that looks at no pointer, that they name no group that is
missing. -/
theorem quest_loot_agrees (refs : LootTemplateMap) (hacyclic : Acyclic (Refers refs)) :
    ∃ bound, ∀ depth, bound ≤ depth → ∀ (store : LootTemplateMap) (loot_id : ℕ),
      (∀ {σ : Type} (dice : Dice σ) (lootMode : ℕ) (s : σ),
        Yields (fillLoot store depth loot_id dice refs lootMode s) fun s' =>
          ∀ e ∈ s'.2, ReachableFrom refs store loot_id e ∧ e.reference = 0) ∧
      ((∀ e, ReachableFrom refs store loot_id e → 0 < e.reference →
          store.lookup e.reference = refs.lookup e.reference) →
        (∀ hasQuestForItem, Yields (haveQuestLootForPlayer store depth loot_id hasQuestForItem) fun b =>
          b = true ↔ ∃ e, ReachableFrom refs store loot_id e ∧ e.reference = 0 ∧
            hasQuestForItem e.itemid = true) ∧
        ((∀ e, ReachableFrom refs store loot_id e → 0 < e.reference →
            ∀ referenced, refs.lookup e.reference = some referenced → referenced.HasGroup e.groupid) →
          Yields (haveQuestLootFor store depth loot_id) fun b =>
            b = true ↔ ∃ e, ReachableFrom refs store loot_id e ∧ e.reference = 0 ∧
              e.needsQuest = true)) := by
  obtain ⟨rank, bound, hrank, hbound⟩ := exists_depth hacyclic
  refine ⟨bound + 1, fun depth hle store loot_id => ?_⟩
  cases depth with
  | zero => exact absurd hle (Nat.not_succ_le_zero bound)
  | succ depth =>
    cases ht : store.lookup loot_id with
    | none =>
      have hnone : ∀ e, ¬ ReachableFrom refs store loot_id e := by
        rintro e ⟨t, ht', -⟩
        rw [ht] at ht'
        exact nomatch ht'
      simp only [fillLoot, haveQuestLootForPlayer, haveQuestLootFor, ht]
      refine ⟨fun dice lootMode s => .ok fun e he => (nomatch he), fun _ => ⟨fun _ => ?_, fun _ => ?_⟩⟩
      · exact .ok ⟨fun h => (nomatch h), fun ⟨e, he, _⟩ => absurd he (hnone e)⟩
      · exact .ok ⟨fun h => (nomatch h), fun ⟨e, he, _⟩ => absurd he (hnone e)⟩
    | some t =>
      have hfrom : ∀ e, ReachableFrom refs store loot_id e ↔ Reachable refs t 0 e := by
        intro e
        simp [ReachableFrom, ht]
      have hdepth : ∀ item ∈ t.entries, 0 < item.reference →
          ∀ referenced, refs.lookup item.reference = some referenced → rank item.reference < depth := by
        intro item _ _ referenced hlookup
        refine Nat.lt_of_lt_of_le (hbound item.reference ?_) (Nat.le_of_succ_le_succ hle)
        rw [← AList.mem_keys, ← AList.lookup_isSome, hlookup]
        rfl
      simp only [fillLoot, haveQuestLootForPlayer, haveQuestLootFor, ht, hfrom]
      refine ⟨fun dice lootMode s => ?_, fun hagrees => ⟨fun hasQuestForItem => ?_, fun hnames => ?_⟩⟩
      · refine (process_yields hrank depth hdepth (s, [])).mono fun s' hs' e he => ?_
        exact (hs' e he).resolve_left (List.not_mem_nil)
      · exact has_yields hrank depth hdepth hagrees (.inl rfl)
      · exact has_yields hrank depth hdepth hagrees (.inr ⟨.inl rfl, hnames⟩)

/-! ## The loot that is filled -/

section Filled

open Sunstrider.Loots (Loot ItemTemplates)

variable {refs store : LootTemplateMap} {loot_id : ℕ}

/-- An entry as it is added to a loot, with the count that is rolled. -/
def LootStoreItem.drop (e : LootStoreItem) (count : ℕ) : Loots.LootStoreItem :=
  ⟨e.itemid, e.needsQuest, e.conditions, count⟩

/-- The quest items of a loot come from entries for quests. -/
def QuestItemsFrom (P : Loots.LootStoreItem → Prop) (l : Loot) : Prop :=
  ∀ item ∈ l.questItems, ∃ drop, P drop ∧ drop.needsQuest = true ∧ drop.itemid = item.itemid

theorem QuestItemsFrom.addStacks {P : Loots.LootStoreItem → Prop} {l : Loot} (h : QuestItemsFrom P l)
    {proto : Loots.ItemTemplate} {drop : Loots.LootStoreItem} (hdrop : P drop) {generated : Loots.LootItem}
    (hid : generated.itemid = drop.itemid) (n count : ℕ) :
    QuestItemsFrom P (l.addStacks proto drop generated n count) := by
  induction n generalizing l count with
  | zero => exact h
  | succ n ih =>
    unfold Loot.addStacks
    cases hquest : drop.needsQuest with
    | true =>
      simp only [if_true, Bool.not_true, Bool.false_and, Bool.false_eq_true, if_false]
      split
      · refine ih (fun item hitem => ?_) _
        rcases List.mem_append.mp hitem with hitem | hitem
        · exact h item hitem
        · rw [List.mem_singleton.mp hitem]
          exact ⟨drop, hdrop, hquest, hid.symm⟩
      · exact h
    | false =>
      simp only [Bool.false_eq_true, if_false]
      split
      · refine ih (fun item hitem => h item ?_) _
        split at hitem <;> exact hitem
      · exact h

/-- **What the search says is true of the loot that is filled**: its quest items come from the entries
that `HaveQuestLootFor` looks for. -/
theorem questItem_reachable (templates : ItemTemplates) (gold : ℕ) {made : List (LootStoreItem × ℕ)}
    (hmade : ∀ e ∈ made, ReachableFrom refs store loot_id e.1 ∧ e.1.reference = 0) :
    ∀ item ∈ ((made.map fun e => e.1.drop e.2).foldl (Loot.addItem templates) (.new gold)).questItems,
      ∃ e, ReachableFrom refs store loot_id e ∧ e.reference = 0 ∧ e.needsQuest = true ∧
        e.itemid = item.itemid := by
  let P (drop : Loots.LootStoreItem) : Prop :=
    ∃ e count, (ReachableFrom refs store loot_id e ∧ e.reference = 0) ∧ e.drop count = drop
  have hdrops : ∀ drop ∈ made.map fun e => e.1.drop e.2, P drop := by
    intro drop hdrop
    obtain ⟨e, he, rfl⟩ := List.mem_map.mp hdrop
    exact ⟨e.1, e.2, hmade e he, rfl⟩
  have hfilled : QuestItemsFrom P
      ((made.map fun e => e.1.drop e.2).foldl (Loot.addItem templates) (.new gold)) := by
    refine List.foldlRecOn (motive := QuestItemsFrom P) _ _ (fun item hitem => nomatch hitem)
      fun l hl drop hdrop => ?_
    unfold Loot.addItem
    cases templates drop.itemid with
    | none => exact hl
    | some proto => exact hl.addStacks (hdrops drop hdrop) rfl _ _
  intro item hitem
  obtain ⟨_, ⟨e, count, ⟨hreach, hreference⟩, rfl⟩, hquest, hid⟩ := hfilled item hitem
  exact ⟨e, hreach, hreference, hquest, hid⟩

end Filled

/-! ## Small templates -/

/-- A template of an item, which is for a quest or not. -/
def oneItem (needsQuest : Bool) : LootTemplate := ⟨[⟨5, 0, 100, 1, needsQuest, 0, 1, []⟩], []⟩

/-- A template with a reference to the template 1. -/
def toFirst (needsQuest : Bool) (groupid : ℕ) : LootTemplate :=
  ⟨[⟨1, 1, 100, 1, needsQuest, groupid, 1, []⟩], []⟩

/-- A template whose second group is its only one. -/
def secondGroup : LootTemplate := ⟨[], [none, some ⟨[⟨⟨5, 0, 100, 1, true, 2, 1, []⟩, rfl⟩], []⟩]⟩

/-- The store of one template, of the number 1. -/
def first (t : LootTemplate) : LootTemplateMap := AList.insert 1 t ∅

theorem lookup_first {t' : LootTemplate} {a : ℕ} (h : (first t).lookup a = some t') : t' = t := by
  rw [first, Lib.lookup_insert_ite] at h
  split at h
  · exact (Option.some.inj h).symm
  · exact nomatch h

theorem acyclic_first (ht : ∀ item ∈ t.entries, item.reference = 0) :
    Acyclic (Refers (first t)) := by
  intro a ha
  obtain ⟨b, ⟨t', ht', ⟨item, hitem, hpos, -⟩, -⟩, -⟩ := Relation.TransGen.head'_iff.mp ha
  rw [lookup_first ht'] at hitem
  exact absurd (ht item hitem) (Nat.pos_iff_ne_zero.mp hpos)

theorem reachable_toFirst (ht : ∀ item ∈ t.entries, item.reference = 0) {needsQuest : Bool}
    {groupid : ℕ} {e : LootStoreItem} (he : Reachable (first t) (toFirst needsQuest groupid) 0 e)
    (hpos : 0 < e.reference) : e.reference = 1 ∧ e.groupid = groupid := by
  cases he with
  | entry hitem =>
    rw [List.mem_singleton.mp hitem]
    exact ⟨rfl, rfl⟩
  | @reference _ _ item _ _ _ hlookup he =>
    rw [lookup_first hlookup] at he
    generalize item.groupid = n at he
    cases he with
    | entry hitem => exact absurd (ht e hitem) (Nat.pos_iff_ne_zero.mp hpos)
    | reference hitem hpos' => exact absurd (ht _ hitem) (Nat.pos_iff_ne_zero.mp hpos')
    | grouped _ hitem => exact absurd (LootGroup.reference_eq_zero hitem) (Nat.pos_iff_ne_zero.mp hpos)
    | group _ _ hitem => exact absurd (LootGroup.reference_eq_zero hitem) (Nat.pos_iff_ne_zero.mp hpos)
  | grouped hg => exact absurd hg List.not_mem_nil
  | group hne => exact absurd rfl hne

/-- A quest item behind a reference is found, where the reference leads to it in both stores. -/
theorem quest_loot_agrees_oneItem : ∃ bound, ∀ depth, bound ≤ depth →
    haveQuestLootFor ((first (oneItem true)).insert 7 (toFirst false 0)) depth 7 = .ok true := by
  obtain ⟨bound, h⟩ := quest_loot_agrees (first (oneItem true)) (acyclic_first (by decide))
  refine ⟨bound, fun depth hle => ?_⟩
  have hreferences : ∀ e, ReachableFrom (first (oneItem true))
      ((first (oneItem true)).insert 7 (toFirst false 0)) 7 e → 0 < e.reference →
      e.reference = 1 ∧ e.groupid = 0 := by
    rintro e ⟨t, ht, he⟩ hpos
    obtain rfl : toFirst false 0 = t := Option.some.inj ht
    exact reachable_toFirst (by decide) he hpos
  obtain ⟨-, hfor⟩ := h depth hle ((first (oneItem true)).insert 7 (toFirst false 0)) 7
  obtain ⟨-, hfor⟩ := hfor fun e he hpos => by
    rw [(hreferences e he hpos).1]
    rfl
  obtain ⟨b, hb, hiff⟩ := hfor fun e he hpos _ _ => .inl (hreferences e he hpos).2
  rw [hb, hiff.mpr]
  refine ⟨⟨5, 0, 100, 1, true, 0, 1, []⟩, ⟨toFirst false 0, rfl, ?_⟩, rfl, rfl⟩
  have hreference : ⟨1, 1, 100, 1, false, 0, 1, []⟩ ∈ (toFirst false 0).entries := by decide
  have hlookup : (first (oneItem true)).lookup 1 = some (oneItem true) := rfl
  exact .reference hreference (by decide) hlookup (.entry (by decide))

/-- **A reference that is flagged as a quest drop is none**: `IsValid` lets it pass, with the words that its
quest chance will be treated as non-quest chance. Beyond that, a quest item behind a reference is not found
where the template is in the store of the reference templates alone, and a reference to a group that is
missing is followed to a null pointer. -/
theorem flagged_reference_not_found :
    (ReachableFrom (first (oneItem false)) (AList.insert 7 (toFirst true 0) ∅) 7
        ⟨1, 1, 100, 1, true, 0, 1, []⟩ ∧
      ∀ depth, haveQuestLootFor (AList.insert 7 (toFirst true 0) ∅) (depth + 2) 7 = .ok false) ∧
    (ReachableFrom (first (oneItem true)) (AList.insert 7 (toFirst false 0) ∅) 7
        ⟨5, 0, 100, 1, true, 0, 1, []⟩ ∧
      ∀ depth, haveQuestLootFor (AList.insert 7 (toFirst false 0) ∅) (depth + 2) 7 = .ok false) ∧
    ∀ depth, haveQuestLootFor ((first secondGroup).insert 7 (toFirst false 1)) (depth + 2) 7 =
      .error .nullGroup := by
  refine ⟨⟨⟨_, rfl, .entry (by decide)⟩, fun depth => rfl⟩, ⟨⟨_, rfl, ?_⟩, fun depth => rfl⟩,
    fun depth => rfl⟩
  have hreference : ⟨1, 1, 100, 1, false, 0, 1, []⟩ ∈ (toFirst false 0).entries := by decide
  have hlookup : (first (oneItem true)).lookup 1 = some (oneItem true) := rfl
  exact .reference hreference (by decide) hlookup (.entry (by decide))

end Sunstrider.LootMgr
