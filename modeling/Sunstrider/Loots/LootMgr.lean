import Mathlib.Data.List.AList
import Mathlib.Data.Rat.Defs

/-!
# Loot templates

`LootStore`, `LootTemplate` and `LootGroup` of `LootMgr.cpp`: how entries come into a template, how loot
is made from it (`Process`), and the two searches for quest items.

What the dice decide is a `Dice`, whose throws may depend on all throws before. Recursion over references
has a bound for its depth. The reports about faulty tables are left out. What `Loot` does with an entry
that is added to it, with a count that is rolled, is in `Loots.Loot` (`LootStoreItem.drop`).
-/

namespace Sunstrider.LootMgr

structure LootStoreItem where
  itemid : ℕ
  /-- The referenced template, or 0. -/
  reference : ℕ
  chance : ℚ
  lootmode : ℕ
  needsQuest : Bool
  groupid : ℕ
  maxcount : ℕ
  conditions : List ℕ
  deriving DecidableEq

/-- An entry of a group, which is never a reference. -/
abbrev GroupItem : Type := { item : LootStoreItem // item.reference = 0 }

structure LootGroup where
  explicitlyChanced : List GroupItem
  equalChanced : List GroupItem
  deriving DecidableEq

namespace LootGroup

/-- The constructor. -/
def new : LootGroup := ⟨[], []⟩

def items (g : LootGroup) : List LootStoreItem :=
  (g.explicitlyChanced ++ g.equalChanced).map Subtype.val

def addEntry (g : LootGroup) (item : GroupItem) : LootGroup :=
  if item.1.chance ≠ 0 then { g with explicitlyChanced := g.explicitlyChanced ++ [item] }
  else { g with equalChanced := g.equalChanced ++ [item] }

/-- The loops of `HasQuestDrop` and `HasQuestDropForPlayer`, over the one list and over the other. -/
def has (wanted : LootStoreItem → Bool) (g : LootGroup) : Bool :=
  g.explicitlyChanced.any (fun i => wanted i.1) || g.equalChanced.any (fun i => wanted i.1)

end LootGroup

structure LootTemplate where
  /-- Not grouped only. -/
  entries : List LootStoreItem
  /-- Null pointers stand for the numbers that no entry uses. -/
  groups : List (Option LootGroup)
  deriving DecidableEq

namespace LootTemplate

def new : LootTemplate := ⟨[], []⟩

/-- `Groups[groupId - 1]`. -/
def group (t : LootTemplate) (groupId : ℕ) : Option LootGroup := t.groups[groupId - 1]?.join

def addEntry (t : LootTemplate) (item : LootStoreItem) : LootTemplate :=
  if h : 0 < item.groupid ∧ item.reference = 0 then
    let groups := t.groups ++ List.replicate (item.groupid - t.groups.length) none
    let group := (groups[item.groupid - 1]?.join).getD .new
    { t with groups := groups.set (item.groupid - 1) (some (group.addEntry ⟨item, h.2⟩)) }
  else { t with entries := t.entries ++ [item] }

/-- `CopyConditions`, to an item of loot: the conditions that it gets, if any are found for it. -/
def copyConditions (t : LootTemplate) (itemid : ℕ) : Option (List ℕ) :=
  (t.entries.find? fun item => item.itemid = itemid).map (·.conditions)

end LootTemplate

abbrev LootTemplateMap : Type := AList fun _ : ℕ => LootTemplate

inductive Fault
  /-- A null pointer is dereferenced. -/
  | nullGroup
  /-- The recursion goes deeper than its bound. -/
  | tooDeep
  deriving DecidableEq

/-! ## Making loot -/

/-- The throws of the dice, with all that these depend on as their state. -/
structure Dice (σ : Type) where
  /-- `Roll` of an entry. -/
  roll : LootStoreItem → σ → Bool × σ
  /-- `Roll` of a group, which is one of its members or none. -/
  pick : (g : LootGroup) → σ → { o : Option LootStoreItem // ∀ item ∈ o, item ∈ g.items } × σ

section

variable {σ : Type} (dice : Dice σ) (refs : LootTemplateMap) (lootMode : ℕ)

/-- `Process` of a group. The entries from which items were added to the loot are beside the dice. -/
def LootGroup.process (g : LootGroup) (s : σ × List LootStoreItem) : σ × List LootStoreItem :=
  match dice.pick g s.1 with
  | (⟨some item, _⟩, dice') => (dice', s.2 ++ [item])
  | (⟨none, _⟩, dice') => (dice', s.2)

/-- `Process`, where `refs` is `LootTemplates_Reference`. -/
def LootTemplate.process :
    ℕ → LootTemplate → ℕ → σ × List LootStoreItem → Except Fault (σ × List LootStoreItem)
  | 0, _, _, _ => .error .tooDeep
  | depth + 1, t, groupId, s =>
    if groupId ≠ 0 then
      if t.groups.length < groupId then .ok s
      else
        match t.group groupId with
        | none => .ok s
        | some group => .ok (group.process dice s)
    else do
      let s ← t.entries.foldlM (fun s item =>
        if item.lootmode &&& lootMode = 0 then .ok s
        else
          let (hit, dice') := dice.roll item s.1
          if !hit then .ok (dice', s.2)
          else if 0 < item.reference then
            match refs.lookup item.reference with
            | none => .ok (dice', s.2)
            | some referenced =>
              (List.range item.maxcount).foldlM
                (fun s _ => LootTemplate.process depth referenced item.groupid s) (dice', s.2)
          else .ok (dice', s.2 ++ [item])) s
      .ok (t.groups.foldl (fun s group =>
        match group with
        | some group => group.process dice s
        | none => s) s)

end

/-! ## Looking for quest items -/

namespace LootTemplate

variable (store : LootTemplateMap)

/-- What `HasQuestDrop` and `HasQuestDropForPlayer` have in common. They look for entries of different
kinds, and differ in what they do where a reference names a group that is missing. -/
def has (wanted : LootStoreItem → Bool) (missing : Except Fault Bool) :
    ℕ → LootTemplate → ℕ → Except Fault Bool
  | 0, _, _ => .error .tooDeep
  | depth + 1, t, groupId =>
    if groupId ≠ 0 then
      if t.groups.length < groupId then .ok false
      else
        match t.group groupId with
        | none => missing
        | some group => .ok (group.has wanted)
    else do
      let found ← t.entries.anyM fun item =>
        if 0 < item.reference then
          match store.lookup item.reference with
          | none => .ok false
          | some referenced => has wanted missing depth referenced item.groupid
        else .ok (wanted item)
      if found then .ok true
      else .ok (t.groups.any fun group => group.any (·.has wanted))

/-- `HasQuestDrop`, which calls the group without a look at the pointer. -/
def hasQuestDrop : ℕ → LootTemplate → ℕ → Except Fault Bool :=
  has store (·.needsQuest) (.error .nullGroup)

/-- `HasQuestDropForPlayer`. The items for which the player has a quest are `hasQuestForItem`. -/
def hasQuestDropForPlayer (hasQuestForItem : ℕ → Bool) : ℕ → LootTemplate → ℕ → Except Fault Bool :=
  has store (fun item => hasQuestForItem item.itemid) (.ok false)

end LootTemplate

/-! ## Stores -/

section

variable (store : LootTemplateMap) (depth loot_id : ℕ)

def haveQuestLootFor : Except Fault Bool :=
  match store.lookup loot_id with
  | none => .ok false
  | some t => t.hasQuestDrop store depth 0

def haveQuestLootForPlayer (hasQuestForItem : ℕ → Bool) : Except Fault Bool :=
  match store.lookup loot_id with
  | none => .ok false
  | some t => t.hasQuestDropForPlayer store hasQuestForItem depth 0

/-- `FillLoot`, as far as `Process`. -/
def fillLoot {σ : Type} (dice : Dice σ) (refs : LootTemplateMap) (lootMode : ℕ) (s : σ) :
    Except Fault (σ × List LootStoreItem) :=
  match store.lookup loot_id with
  | none => .ok (s, [])
  | some t => t.process dice refs lootMode depth 0 (s, [])

end

end Sunstrider.LootMgr
