import Mathlib.Data.Finset.Max
import Sunstrider.Laws.Pools.Members

/-!
# The rotation of quest pools

`spawnQuests` is taken apart into its three loops: the active quests of the pool are removed
(`despawnQuests_spec`), quests that are active anywhere are recycled (`card_recycleQuests`), and a number of
quests is activated (`activateQuests_spec`). A pool keeps to its own quests whatever the dice exactly where
it has enough quests that are not active, or no other quests are (`rotates_iff`); in a run of such calls
every call is right (`rotated_of_admits`).
-/

namespace Sunstrider.Pools

open Sunstrider.Lib (Rounding AllAlong subU32 subU32_eq)

namespace ActivePoolData

theorem getActiveObjectCount_increase (s : ActivePoolData) (poolId other : ℕ) :
    (s.increase poolId).getActiveObjectCount other =
      s.getActiveObjectCount other + if other = poolId then 1 else 0 := by
  unfold increase getActiveObjectCount
  by_cases h : other = poolId
  · subst h
    simp
  · simp [h]

theorem getActiveObjectCount_decrease (s : ActivePoolData) (poolId other : ℕ) :
    (s.decrease poolId).getActiveObjectCount other =
      s.getActiveObjectCount other - if other = poolId then 1 else 0 := by
  unfold decrease getActiveObjectCount
  by_cases h : other = poolId
  · subst h
    simp
  · simp [h]

end ActivePoolData

namespace PoolGroup

variable {g : PoolGroup} {s : ActiveQuestData} {dice : QuestDice}

/-- The quests of a pool. -/
def quests (g : PoolGroup) : Finset ℕ := (g.equalChanced.map PoolObject.guid).toFinset

theorem inactiveQuests_eq (g : PoolGroup) (s : ActiveQuestData) :
    g.inactiveQuests s = g.quests \ s.activeQuests := by
  ext questId
  simp only [inactiveQuests, quests, List.mem_toFinset, List.mem_map, List.mem_filter, Finset.mem_sdiff,
    decide_eq_true_eq]
  constructor
  · rintro ⟨obj, ⟨hobj, hidle⟩, rfl⟩
    exact ⟨⟨obj, hobj, rfl⟩, hidle⟩
  · rintro ⟨⟨obj, hobj, rfl⟩, hidle⟩
    exact ⟨obj, ⟨hobj, hidle⟩, rfl⟩

/-! ## The three loops -/

/-- **The quests of the pool are removed**, and those that were active are taken off its count. -/
theorem despawnQuests_spec (hequal : g.explicitlyChanced = []) :
    (g.despawnQuests s).activeQuests = s.activeQuests \ g.quests ∧
      ∀ other, (g.despawnQuests s).getActiveObjectCount other = s.getActiveObjectCount other -
        if other = g.poolId then (s.activeQuests ∩ g.quests).card else 0 := by
  suffices hloop : ∀ (l : List PoolObject) (s : ActiveQuestData),
      (l.foldl (fun s obj => if obj.guid ∈ s.activeQuests then s.removeQuest obj.guid g.poolId else s)
          s).activeQuests = s.activeQuests \ (l.map PoolObject.guid).toFinset ∧
        ∀ other, (l.foldl (fun s obj => if obj.guid ∈ s.activeQuests then
            s.removeQuest obj.guid g.poolId else s) s).getActiveObjectCount other =
          s.getActiveObjectCount other - if other = g.poolId then
            (s.activeQuests ∩ (l.map PoolObject.guid).toFinset).card else 0 by
    have hobjects : g.objects = g.equalChanced := by rw [objects, hequal, List.append_nil]
    rw [despawnQuests, hobjects]
    exact hloop g.equalChanced s
  intro l
  induction l with
  | nil =>
    intro s
    simp
  | cons obj l ih =>
    intro s
    obtain ⟨hactive, hcount⟩ :=
      ih (if obj.guid ∈ s.activeQuests then s.removeQuest obj.guid g.poolId else s)
    rw [List.foldl_cons, List.map_cons, List.toFinset_cons]
    by_cases hobj : obj.guid ∈ s.activeQuests
    · rw [if_pos hobj] at hactive hcount ⊢
      refine ⟨?_, fun other => ?_⟩
      · rw [hactive]
        ext questId
        simp only [ActiveQuestData.removeQuest, Finset.mem_sdiff, Finset.mem_erase, Finset.mem_insert]
        tauto
      · rw [hcount]
        have hsplit : s.activeQuests ∩ insert obj.guid (l.map PoolObject.guid).toFinset =
            insert obj.guid ((s.activeQuests.erase obj.guid) ∩ (l.map PoolObject.guid).toFinset) := by
          ext questId
          simp only [Finset.mem_inter, Finset.mem_insert, Finset.mem_erase]
          constructor
          · tauto
          · rintro (rfl | h)
            · exact ⟨hobj, .inl rfl⟩
            · exact ⟨h.1.2, .inr h.2⟩
        rw [hsplit, Finset.card_insert_of_notMem (by simp)]
        simp only [ActiveQuestData.removeQuest, ActivePoolData.getActiveObjectCount_decrease]
        split <;> omega
    · rw [if_neg hobj] at hactive hcount ⊢
      refine ⟨?_, fun other => ?_⟩
      · rw [hactive]
        ext questId
        simp only [Finset.mem_sdiff, Finset.mem_insert, not_or]
        constructor
        · rintro ⟨h, hl⟩
          exact ⟨h, fun heq => hobj (heq ▸ h), hl⟩
        · tauto
      · rw [hcount, Finset.inter_insert_of_notMem hobj]

/-- What is recycled comes from the quests that were active. -/
theorem recycleQuests_spec (dice : QuestDice) (limit n : ℕ) : ∀ currentQuests newQuests : Finset ℕ,
    currentQuests.card ≤ n → Disjoint currentQuests newQuests →
    newQuests ⊆ recycleQuests dice limit n currentQuests newQuests ∧
      recycleQuests dice limit n currentQuests newQuests ⊆ newQuests ∪ currentQuests ∧
      (newQuests.card < limit → (recycleQuests dice limit n currentQuests newQuests).card =
        min limit (newQuests.card + currentQuests.card)) := by
  induction n with
  | zero =>
    intro currentQuests newQuests hn _
    have hempty : currentQuests = ∅ := Finset.card_eq_zero.mp (by omega)
    subst hempty
    refine ⟨subset_rfl, by simp [recycleQuests], fun hlt => ?_⟩
    rw [recycleQuests, Finset.card_empty, Nat.add_zero, Nat.min_eq_right hlt.le]
  | succ n ih =>
    intro currentQuests newQuests hn hdisj
    rw [recycleQuests]
    by_cases hsome : currentQuests.Nonempty
    · rw [dif_pos hsome]
      by_cases hlt : newQuests.card < limit
      · rw [if_pos hlt]
        obtain ⟨questId, hmem⟩ := dice.recycled currentQuests hsome
        have hnew : questId ∉ newQuests := Finset.disjoint_left.mp hdisj hmem
        have hcard : (insert questId newQuests).card = newQuests.card + 1 :=
          Finset.card_insert_of_notMem hnew
        have hrest : (currentQuests.erase questId).card = currentQuests.card - 1 :=
          Finset.card_erase_of_mem hmem
        have hpos := Finset.card_pos.mpr hsome
        have hdisj' : Disjoint (currentQuests.erase questId) (insert questId newQuests) := by
          rw [Finset.disjoint_insert_right]
          exact ⟨Finset.notMem_erase _ _, hdisj.mono_left (Finset.erase_subset _ _)⟩
        obtain ⟨hsub, hup, hmin⟩ :=
          ih (currentQuests.erase questId) (insert questId newQuests) (by omega) hdisj'
        refine ⟨(Finset.subset_insert _ _).trans hsub, hup.trans ?_, fun _ => ?_⟩
        · intro x hx
          simp only [Finset.mem_union, Finset.mem_insert, Finset.mem_erase] at hx ⊢
          rcases hx with (rfl | hx) | hx
          · exact .inr hmem
          · exact .inl hx
          · exact .inr hx.2
        · by_cases hfull : newQuests.card + 1 < limit
          · rw [hmin (by omega), hcard, hrest]
            omega
          · -- the limit is reached: no round follows
            have hlast : recycleQuests dice limit n (currentQuests.erase questId)
                (insert questId newQuests) = insert questId newQuests := by
              cases n with
              | zero => rfl
              | succ n =>
                rw [recycleQuests]
                split
                · rw [if_neg (by omega)]
                · rfl
            rw [hlast, hcard]
            omega
      · rw [if_neg hlt]
        exact ⟨subset_rfl, Finset.subset_union_left, fun h => absurd h hlt⟩
    · rw [dif_neg hsome]
      rw [Finset.not_nonempty_iff_eq_empty] at hsome
      subst hsome
      refine ⟨subset_rfl, Finset.subset_union_left, fun hlt => ?_⟩
      rw [Finset.card_empty, Nat.add_zero, Nat.min_eq_right hlt.le]

theorem recycleQuests_of_le {limit : ℕ} {newQuests : Finset ℕ} (n : ℕ) (currentQuests : Finset ℕ)
    (h : limit ≤ newQuests.card) : recycleQuests dice limit n currentQuests newQuests = newQuests := by
  cases n with
  | zero => rfl
  | succ n =>
    rw [recycleQuests]
    split
    · rw [if_neg (by omega)]
    · rfl

theorem activateQuests_succ {limit n : ℕ} {newQuests : Finset ℕ} (hsome : newQuests.Nonempty) :
    g.activateQuests dice (n + 1) limit newQuests s =
      if subU32 limit 1 ≠ 0 then
        g.activateQuests dice n (subU32 limit 1) (newQuests.erase (dice.activated newQuests hsome).1)
          (s.activateQuest (dice.activated newQuests hsome).1 g.poolId)
      else s.activateQuest (dice.activated newQuests hsome).1 g.poolId := by
  rw [activateQuests, dif_pos hsome]

/-- **Some of the new quests are activated**, and counted for the pool: as many as the limit lets. -/
theorem activateQuests_spec (dice : QuestDice) (n : ℕ) : ∀ (limit : ℕ) (newQuests : Finset ℕ) (s : ActiveQuestData),
    newQuests.card ≤ n →
    ∃ chosen ⊆ newQuests,
      (g.activateQuests dice n limit newQuests s).activeQuests = s.activeQuests ∪ chosen ∧
      (∀ other, (g.activateQuests dice n limit newQuests s).getActiveObjectCount other =
        s.getActiveObjectCount other + if other = g.poolId then chosen.card else 0) ∧
      (0 < limit → limit < 2 ^ 32 → chosen.card = min limit newQuests.card) := by
  induction n with
  | zero =>
    intro limit newQuests s hn
    refine ⟨∅, Finset.empty_subset _, by simp [activateQuests], fun other => by simp [activateQuests], ?_⟩
    intro _ _
    rw [Finset.card_empty]
    omega
  | succ n ih =>
    intro limit newQuests s hn
    by_cases hsome : newQuests.Nonempty
    · rw [activateQuests_succ hsome]
      have hmem := (dice.activated newQuests hsome).2
      generalize (dice.activated newQuests hsome).1 = questId at hmem ⊢
      have hrest : (newQuests.erase questId).card = newQuests.card - 1 := Finset.card_erase_of_mem hmem
      have hpos := Finset.card_pos.mpr hsome
      have hone : ∀ other, (s.activateQuest questId g.poolId).getActiveObjectCount other =
          s.getActiveObjectCount other + if other = g.poolId then 1 else 0 := fun other =>
        ActivePoolData.getActiveObjectCount_increase _ _ _
      have hless : 0 < limit → limit < 2 ^ 32 → subU32 limit 1 = limit - 1 := fun hlimit hsmall => by
        have hone : 1 ≤ limit := hlimit
        exact subU32_eq hone hsmall
      generalize subU32 limit 1 = left at hless ⊢
      by_cases hmore : left ≠ 0
      · rw [if_pos hmore]
        obtain ⟨chosen, hsub, hactive, hcount, hmin⟩ := ih left (newQuests.erase questId)
          (s.activateQuest questId g.poolId) (by omega)
        have hnot : questId ∉ chosen := fun h => absurd (hsub h) (Finset.notMem_erase _ _)
        have hcard : (insert questId chosen).card = chosen.card + 1 := Finset.card_insert_of_notMem hnot
        refine ⟨insert questId chosen, ?_, ?_, fun other => ?_, fun hlimit hsmall => ?_⟩
        · exact Finset.insert_subset hmem (hsub.trans (Finset.erase_subset _ _))
        · rw [hactive, Finset.union_insert]
          exact Finset.insert_union questId s.activeQuests chosen
        · rw [hcount, hone, hcard]
          split <;> omega
        · rw [hless hlimit hsmall] at hmin hmore
          omega
      · rw [if_neg hmore]
        refine ⟨{questId}, Finset.singleton_subset_iff.mpr hmem, ?_, fun other => ?_, fun hlimit hsmall => ?_⟩
        · rw [Finset.union_comm]
          exact Finset.insert_eq questId s.activeQuests
        · rw [hone, Finset.card_singleton]
        · rw [hless hlimit hsmall] at hmore
          rw [Finset.card_singleton]
          omega
    · have hsame : g.activateQuests dice (n + 1) limit newQuests s = s := by
        rw [activateQuests, dif_neg hsome]
      rw [hsame, Finset.not_nonempty_iff_eq_empty.mp hsome]
      refine ⟨∅, subset_rfl, by simp, fun other => by simp, fun _ _ => ?_⟩
      rw [Finset.card_empty]
      omega

/-! ## One call -/

/-- The quests that a call can activate. -/
def newQuests (g : PoolGroup) (limit : ℕ) (dice : QuestDice) (s : ActiveQuestData) : Finset ℕ :=
  recycleQuests dice limit s.activeQuests.card s.activeQuests (g.quests \ s.activeQuests)

theorem spawnQuests_spec (R : Rounding) (t : PoolTemplateData) {triggerFrom : ℕ} (hset : triggerFrom ≠ 0)
    (hequal : g.explicitlyChanced = []) (dice : QuestDice) (s : ActiveQuestData) :
    ∃ chosen ⊆ g.newQuests (g.spawnLimit R t) dice s,
      (g.spawnQuests R t triggerFrom [] dice s).activeQuests = (s.activeQuests \ g.quests) ∪ chosen ∧
      (∀ other, (g.spawnQuests R t triggerFrom [] dice s).getActiveObjectCount other =
        (s.getActiveObjectCount other -
          if other = g.poolId then (s.activeQuests ∩ g.quests).card else 0) +
            if other = g.poolId then chosen.card else 0) ∧
      (0 < g.spawnLimit R t → g.spawnLimit R t < 2 ^ 32 →
        chosen.card = min (g.spawnLimit R t) (g.newQuests (g.spawnLimit R t) dice s).card) := by
  obtain ⟨hactive, hcount⟩ := despawnQuests_spec (s := s) hequal
  obtain ⟨chosen, hsub, hactive', hcount', hmin⟩ := activateQuests_spec (g := g) dice _
    (g.spawnLimit R t) (g.newQuests (g.spawnLimit R t) dice s) (g.despawnQuests s) le_rfl
  have hcall : g.spawnQuests R t triggerFrom [] dice s =
      g.activateQuests dice (g.newQuests (g.spawnLimit R t) dice s).card (g.spawnLimit R t)
        (g.newQuests (g.spawnLimit R t) dice s) (g.despawnQuests s) := by
    rw [spawnQuests, if_neg fun h => hset h.1, inactiveQuests_eq, newQuests]
  rw [hcall]
  refine ⟨chosen, hsub, ?_, fun other => ?_, hmin⟩
  · rw [hactive', hactive]
  · rw [hcount', hcount]

end PoolGroup

namespace QuestPools

open PoolGroup

variable {pools : QuestPools} {R : Rounding} {s : ActiveQuestData}

def quests (pools : QuestPools) (p : ℕ) : Finset ℕ := (pools.group p).quests

def limit (pools : QuestPools) (R : Rounding) (p : ℕ) : ℕ := (pools.group p).spawnLimit R (pools.template p)

/-- No quest is in two pools, and the limits are `uint32`. -/
structure Apart (pools : QuestPools) (R : Rounding) : Prop where
  disjoint : ∀ p p', p ≠ p' → Disjoint (pools.quests p) (pools.quests p')
  small : ∀ p, pools.limit R p < 2 ^ 32

/-- The count of each pool is that of its active quests. -/
def Consistent (pools : QuestPools) (s : ActiveQuestData) : Prop :=
  ∀ p, (pools.quests p).Nonempty →
    s.getActiveObjectCount p = (s.activeQuests ∩ pools.quests p).card

/-- **What is promised of a call** for a pool that has quests. The active quests that are not of the pool
stay as they are, and so do the counts of the other pools. -/
structure Rotated (pools : QuestPools) (R : Rounding) (p : ℕ) (s s' : ActiveQuestData) : Prop where
  card : 0 < pools.limit R p →
    (s'.activeQuests ∩ pools.quests p).card = min (pools.limit R p) (pools.quests p).card
  others : s'.activeQuests \ pools.quests p = s.activeQuests \ pools.quests p
  count : s'.getActiveObjectCount p = (s'.activeQuests ∩ pools.quests p).card
  counts : ∀ other, other ≠ p → s'.getActiveObjectCount other = s.getActiveObjectCount other

/-- A pool that has quests has as many that are not active as it may have active, or no other quests are
active. -/
def Admits (pools : QuestPools) (R : Rounding) (s : ActiveQuestData) (c : Change) : Prop :=
  (pools.quests c.poolId).Nonempty →
    pools.limit R c.poolId ≤ (pools.quests c.poolId \ s.activeQuests).card ∨
      s.activeQuests ⊆ pools.quests c.poolId

theorem isEmpty_iff (pools : QuestPools) (p : ℕ) : (pools.group p).isEmpty = true ↔ pools.quests p = ∅ := by
  unfold PoolGroup.isEmpty quests PoolGroup.quests
  rw [pools.equal p]
  simp

theorem spawnPool_eq (c : Change) (h : (pools.quests c.poolId).Nonempty) :
    pools.spawnPool R s c =
      (pools.group c.poolId).spawnQuests R (pools.template c.poolId) c.triggerFrom [] c.dice s := by
  rw [spawnPool, if_neg fun hempty => h.ne_empty ((pools.isEmpty_iff c.poolId).mp hempty)]

theorem spawnPool_spec (hs : pools.Consistent s) (c : Change) (h : (pools.quests c.poolId).Nonempty) :
    ∃ chosen ⊆ (pools.group c.poolId).newQuests (pools.limit R c.poolId) c.dice s,
      (pools.spawnPool R s c).activeQuests = (s.activeQuests \ pools.quests c.poolId) ∪ chosen ∧
      (pools.spawnPool R s c).getActiveObjectCount c.poolId = chosen.card ∧
      (∀ other, other ≠ c.poolId →
        (pools.spawnPool R s c).getActiveObjectCount other = s.getActiveObjectCount other) ∧
      (0 < pools.limit R c.poolId → pools.limit R c.poolId < 2 ^ 32 → chosen.card =
        min (pools.limit R c.poolId)
          ((pools.group c.poolId).newQuests (pools.limit R c.poolId) c.dice s).card) := by
  obtain ⟨chosen, hsub, hactive, hcount, hmin⟩ := spawnQuests_spec R (pools.template c.poolId) c.isSet
    (pools.equal c.poolId) c.dice s
  rw [spawnPool_eq c h]
  refine ⟨chosen, hsub, hactive, ?_, fun other hne => ?_, hmin⟩
  · rw [hcount, pools.poolId_eq, if_pos rfl, if_pos rfl, hs c.poolId h, quests, Nat.sub_self, Nat.zero_add]
  · rw [hcount, pools.poolId_eq, if_neg hne, if_neg hne]
    rfl

/-- The quests that can be activated, where there are enough of the pool. -/
theorem newQuests_of_le (dice : QuestDice) {p : ℕ}
    (h : pools.limit R p ≤ (pools.quests p \ s.activeQuests).card) :
    (pools.group p).newQuests (pools.limit R p) dice s = pools.quests p \ s.activeQuests :=
  recycleQuests_of_le _ _ h

theorem rotated_of_chosen {c : Change} (hs : pools.Consistent s) (hapart : pools.Apart R)
    (h : (pools.quests c.poolId).Nonempty)
    (hown : (pools.group c.poolId).newQuests (pools.limit R c.poolId) c.dice s ⊆ pools.quests c.poolId)
    (hcard : 0 < pools.limit R c.poolId → min (pools.limit R c.poolId)
      ((pools.group c.poolId).newQuests (pools.limit R c.poolId) c.dice s).card =
        min (pools.limit R c.poolId) (pools.quests c.poolId).card) :
    pools.Rotated R c.poolId s (pools.spawnPool R s c) := by
  obtain ⟨chosen, hsub, hactive, hcount, hcounts, hmin⟩ := spawnPool_spec (R := R) hs c h
  have hchosen := hsub.trans hown
  have hinter : (pools.spawnPool R s c).activeQuests ∩ pools.quests c.poolId = chosen := by
    rw [hactive, Finset.union_inter_distrib_right, Finset.sdiff_inter_self, Finset.empty_union,
      Finset.inter_eq_left.mpr hchosen]
  refine ⟨fun hpos => ?_, ?_, ?_, hcounts⟩
  · rw [hinter, hmin hpos (hapart.small c.poolId), hcard hpos]
  · rw [hactive, Finset.union_sdiff_distrib, Finset.sdiff_idem, Finset.sdiff_eq_empty_iff_subset.mpr hchosen,
      Finset.union_empty]
  · rw [hinter, hcount]

/-- **An admitted call is right.** -/
theorem rotated_of_admits {c : Change} (hs : pools.Consistent s) (hapart : pools.Apart R)
    (h : (pools.quests c.poolId).Nonempty) (hadmits : pools.Admits R s c) :
    pools.Rotated R c.poolId s (pools.spawnPool R s c) := by
  by_cases hroom : pools.limit R c.poolId ≤ (pools.quests c.poolId \ s.activeQuests).card
  · have hnew := newQuests_of_le c.dice hroom
    have hle : (pools.quests c.poolId \ s.activeQuests).card ≤ (pools.quests c.poolId).card :=
      Finset.card_le_card Finset.sdiff_subset
    refine rotated_of_chosen hs hapart h (hnew ▸ Finset.sdiff_subset) fun _ => ?_
    rw [hnew]
    omega
  · have hown := (hadmits h).resolve_left hroom
    have hdisj : Disjoint s.activeQuests (pools.quests c.poolId \ s.activeQuests) :=
      Finset.disjoint_sdiff
    obtain ⟨-, hup, hmin⟩ := recycleQuests_spec c.dice (pools.limit R c.poolId)
      s.activeQuests.card s.activeQuests (pools.quests c.poolId \ s.activeQuests) le_rfl hdisj
    have hall : (pools.quests c.poolId \ s.activeQuests).card + s.activeQuests.card =
        (pools.quests c.poolId).card := Finset.card_sdiff_add_card_eq_card hown
    refine rotated_of_chosen hs hapart h ?_ fun _ => ?_
    · exact hup.trans (Finset.union_subset Finset.sdiff_subset hown)
    · have hcard : ((pools.group c.poolId).newQuests (pools.limit R c.poolId) c.dice s).card =
          min (pools.limit R c.poolId) (pools.quests c.poolId).card := by
        rw [← hall]
        exact hmin (Nat.lt_of_not_le hroom)
      omega

theorem Rotated.consistent {p : ℕ} {s' : ActiveQuestData} (hs : pools.Consistent s)
    (hapart : pools.Apart R) (hrot : pools.Rotated R p s s') : pools.Consistent s' := by
  intro other hother
  by_cases hsame : other = p
  · subst hsame
    exact hrot.count
  · have hsub : ∀ active : Finset ℕ, active ∩ pools.quests other =
        (active \ pools.quests p) ∩ pools.quests other := by
      intro active
      ext x
      simp only [Finset.mem_inter, Finset.mem_sdiff]
      constructor
      · rintro ⟨hx, hquest⟩
        exact ⟨⟨hx, Finset.disjoint_left.mp (hapart.disjoint other p hsame) hquest⟩, hquest⟩
      · rintro ⟨⟨hx, -⟩, hquest⟩
        exact ⟨hx, hquest⟩
    rw [hrot.counts other hsame, hs other hother, hsub, hsub s'.activeQuests, hrot.others]

/-- Dice that draw a quest as soon as they can. -/
def drawing (x : ℕ) : QuestDice :=
  ⟨fun quests h => if hx : x ∈ quests then ⟨x, hx⟩ else ⟨quests.min' h, quests.min'_mem h⟩,
    fun quests h => if hx : x ∈ quests then ⟨x, hx⟩ else ⟨quests.min' h, quests.min'_mem h⟩⟩

theorem recycled_drawing {x : ℕ} {quests : Finset ℕ} (h : quests.Nonempty) (hx : x ∈ quests) :
    ((drawing x).recycled quests h).1 = x :=
  congrArg Subtype.val (dif_pos hx)

/-- **A call is right whatever the dice** just if it is admitted: else some dice recycle a quest that is not
of the pool, and count it. -/
theorem rotates_iff (hs : pools.Consistent s) (hapart : pools.Apart R) {p triggerFrom : ℕ}
    (hset : triggerFrom ≠ 0) (h : (pools.quests p).Nonempty) :
    (∀ dice, pools.Rotated R p s (pools.spawnPool R s ⟨p, triggerFrom, hset, dice⟩)) ↔
      (pools.limit R p ≤ (pools.quests p \ s.activeQuests).card ∨ s.activeQuests ⊆ pools.quests p) := by
  constructor
  · intro hall
    by_contra hnot
    rw [not_or, Nat.not_le, Finset.not_subset] at hnot
    obtain ⟨hroom, x, hx, hother⟩ := hnot
    have hsome : s.activeQuests.Nonempty := ⟨x, hx⟩
    obtain ⟨chosen, hsub, hactive, hcount, -, hmin⟩ :=
      spawnPool_spec (R := R) hs ⟨p, triggerFrom, hset, drawing x⟩ h
    dsimp only at hsub hactive hcount hmin
    have hdisj : Disjoint s.activeQuests (pools.quests p \ s.activeQuests) := Finset.disjoint_sdiff
    obtain ⟨n, hn⟩ : ∃ n, s.activeQuests.card = n + 1 :=
      ⟨_, (Nat.succ_pred_eq_of_pos (Finset.card_pos.mpr hsome)).symm⟩
    have hxnew : x ∈ (pools.group p).newQuests (pools.limit R p) (drawing x) s := by
      have hround : (pools.group p).newQuests (pools.limit R p) (drawing x) s =
          recycleQuests (drawing x) (pools.limit R p) n (s.activeQuests.erase x)
            (insert x (pools.quests p \ s.activeQuests)) := by
        show recycleQuests _ _ _ _ (pools.quests p \ s.activeQuests) = _
        rw [hn, recycleQuests, dif_pos hsome]
        rw [if_pos hroom, recycled_drawing hsome hx]
      have hrest := (recycleQuests_spec (drawing x) (pools.limit R p) n
        (s.activeQuests.erase x) (insert x (pools.quests p \ s.activeQuests))
        (by rw [Finset.card_erase_of_mem hx]; omega) (by
          rw [Finset.disjoint_insert_right]
          exact ⟨Finset.notMem_erase _ _, hdisj.mono_left (Finset.erase_subset _ _)⟩)).1
      rw [hround]
      exact hrest (Finset.mem_insert_self _ _)
    have hcard := (recycleQuests_spec (drawing x) (pools.limit R p) s.activeQuests.card
      s.activeQuests (pools.quests p \ s.activeQuests) le_rfl hdisj).2.2 hroom
    have hfull : ((pools.group p).newQuests (pools.limit R p) (drawing x) s).card ≤ chosen.card := by
      rw [hmin (by omega) (hapart.small p)]
      refine Nat.le_min.mpr ⟨?_, le_rfl⟩
      exact hcard.le.trans (Nat.min_le_left _ _)
    have hxchosen : x ∈ chosen := Finset.eq_of_subset_of_card_le hsub hfull ▸ hxnew
    have hcounted := (hall (drawing x)).count
    rw [hcount, hactive, Finset.union_inter_distrib_right, Finset.sdiff_inter_self,
      Finset.empty_union] at hcounted
    have hinter : chosen ∩ pools.quests p ⊆ chosen := Finset.inter_subset_left
    have hall' := Finset.eq_of_subset_of_card_le hinter hcounted.le
    exact hother (Finset.mem_inter.mp (hall' ▸ hxchosen)).2
  · intro hadmits dice
    exact rotated_of_admits (c := ⟨p, triggerFrom, hset, dice⟩) hs hapart h fun _ => hadmits

/-! ## Runs -/

theorem consistent_spawnPool (hapart : pools.Apart R) (s : ActiveQuestData) (c : Change)
    (hs : pools.Consistent s) (hadmits : pools.Admits R s c) :
    pools.Consistent (pools.spawnPool R s c) := by
  by_cases h : (pools.quests c.poolId).Nonempty
  · exact (rotated_of_admits hs hapart h hadmits).consistent hs hapart
  · have hempty := (pools.isEmpty_iff c.poolId).mpr (Finset.not_nonempty_iff_eq_empty.mp h)
    rw [spawnPool, if_pos hempty]
    exact hs

/-- **Quest pools rotate their own quests** in every run whose calls are all admitted: after each call the
pool has as many active quests as its limit lets, the count is theirs, and nothing else changes. -/
theorem quests_rotate (pools : QuestPools) (R : Rounding) (s : ActiveQuestData) (changes : List Change)
    (hapart : pools.Apart R) (hs : pools.Consistent s)
    (hadmitted : AllAlong (pools.spawnPool R) (pools.Admits R) s changes) :
    ∀ l c, l ++ [c] <+: changes → (pools.quests c.poolId).Nonempty →
      pools.Rotated R c.poolId (l.foldl (pools.spawnPool R) s)
        ((l ++ [c]).foldl (pools.spawnPool R) s) := by
  rintro l c ⟨rest, rfl⟩ h
  obtain ⟨hfirst, hlast⟩ := Lib.allAlong_append.mp (Lib.allAlong_append.mp hadmitted).1
  have hbefore := Lib.foldl_keeps_of_allAlong (consistent_spawnPool hapart) hs hfirst
  rw [List.foldl_append]
  exact rotated_of_admits hbefore hapart h hlast.1

/-! ### Two pools -/

/-- Quests 1 and 2 in a pool that has so many active, and quest 3 in another pool. -/
def twoPools (maxLimit : ℕ) : QuestPools :=
  (((ofTemplates fun _ => ⟨maxLimit, 0⟩).loadEntry 1 1).loadEntry 1 2).loadEntry 2 3

theorem quests_twoPools (maxLimit p : ℕ) :
    (twoPools maxLimit).quests p = if p = 1 then {1, 2} else if p = 2 then {3} else ∅ := by
  by_cases h₁ : p = 1
  · subst h₁
    rfl
  · by_cases h₂ : p = 2
    · subst h₂
      rfl
    · simp [quests, PoolGroup.quests, twoPools, loadEntry, ofTemplates, Function.update_of_ne, h₁, h₂]

theorem limit_twoPools (maxLimit p : ℕ) : (twoPools maxLimit).limit .exact p = maxLimit := by
  simp [limit, spawnLimit, twoPools, loadEntry, ofTemplates, Rounding.div, Rounding.exact]

theorem apart_twoPools {maxLimit : ℕ} (h : maxLimit < 2 ^ 32) : (twoPools maxLimit).Apart .exact where
  disjoint p p' hne := by
    rw [quests_twoPools, quests_twoPools]
    split
    · split
      · omega
      · split <;> decide
    · split
      · split
        · decide
        · split
          · omega
          · decide
      · exact Finset.disjoint_empty_left _
  small p := (limit_twoPools maxLimit p).trans_lt h

/-- The quests are active that are named, with their counts. -/
def active (quests : Finset ℕ) : ActiveQuestData :=
  ⟨⟨∅, ∅, fun p => some (quests ∩ if p = 1 then {1, 2} else if p = 2 then {3} else ∅).card⟩, quests⟩

theorem consistent_active (maxLimit : ℕ) (quests : Finset ℕ) :
    (twoPools maxLimit).Consistent (active quests) := by
  intro p _
  rw [quests_twoPools]
  rfl

theorem rotates_twoPools :
    (∀ dice, (twoPools 1).Rotated .exact 1 (active {1, 3})
      ((twoPools 1).spawnPool .exact (active {1, 3}) ⟨1, 1, by decide, dice⟩)) ↔
    ((twoPools 1).limit .exact 1 ≤ ((twoPools 1).quests 1 \ (active {1, 3}).activeQuests).card ∨
      (active {1, 3}).activeQuests ⊆ (twoPools 1).quests 1) :=
  rotates_iff (consistent_active 1 _) (apart_twoPools (by decide)) (by decide) ⟨1, by decide⟩

theorem not_rotated_twoPools :
    ¬ ∀ (pools : QuestPools) (R : Rounding) (s : ActiveQuestData), pools.Apart R → pools.Consistent s →
      ∀ c : Change, (pools.quests c.poolId).Nonempty →
        pools.Rotated R c.poolId s (pools.spawnPool R s c) := by
  intro hall
  have hrot := hall (twoPools 2) .exact (active {1, 2, 3}) (apart_twoPools (by decide))
    (consistent_active 2 _) ⟨1, 1, by decide, drawing 3⟩ ⟨1, by decide⟩
  have hcard := hrot.card (by rw [limit_twoPools]; decide)
  revert hcard
  decide +kernel

theorem quests_rotate_twoPools :
    ((twoPools 1).Apart .exact ∧ (twoPools 1).Consistent (active {1, 3})) ∧
      (twoPools 1).Rotated .exact 1 (active {1, 3})
        ([⟨1, 1, by decide, drawing 3⟩].foldl ((twoPools 1).spawnPool .exact) (active {1, 3})) := by
  have hadmitted : AllAlong ((twoPools 1).spawnPool .exact) ((twoPools 1).Admits .exact) (active {1, 3})
      [⟨1, 1, by decide, drawing 3⟩] := by
    refine ⟨fun _ => .inl ?_, trivial⟩
    rw [limit_twoPools]
    decide
  exact ⟨⟨apart_twoPools (by decide), consistent_active 1 _⟩,
    quests_rotate (twoPools 1) .exact (active {1, 3}) [⟨1, 1, by decide, drawing 3⟩]
      (apart_twoPools (by decide)) (consistent_active 1 _) hadmitted [] _ List.prefix_rfl ⟨1, by decide⟩⟩

end QuestPools

end Sunstrider.Pools
