import Sunstrider.Loots.MasterLoot
import Sunstrider.Laws.Loots.Counter

/-!
# What the master looter may give

All the checks of the handler but one are a condition for a gift (`Admits`), and then the distance decides,
the wrong way round (`handleLootMasterGive_of_admits`). Whether the item was looted before is not asked. So
the handler does as it should exactly where some other check fails, or where the distance refuses what must
not be given (`givesAsStated_iff`). To the loot a gift is an award, and all counters stay exact just if each
gift is of one unit (`loots_exact_iff`).
-/

namespace Sunstrider.Loots

open Sunstrider.Inventory (ItemPosCount)
open Sunstrider.Player (Body RewardRules)

namespace LootWorld

variable {Bags : Type} (S : Storage Bags) (rules : RewardRules) (w : LootWorld Bags) (player : LootingPlayer)
variable (lootguid : LootGuid) (slotid targetGuid : ℕ)

/-- The checks of the handler, without that of the distance. -/
structure Admits (target : LootingPlayer) (loot : Loot) (item : LootItem) (dest : List ItemPosCount) :
    Prop where
  master : w.isMasterLooter player = true
  found : w.getPlayer player targetGuid = some target
  looting : player.lootGuid = lootguid
  raid : player.isInRaidWith target = true
  inMap : player.isInMap target = true
  opened : w.lootOf player = some loot
  inSlot : loot.itemAt slotid = some item
  room : w.canStore S target item = (.ok, dest)

/-- What the master looter may give. -/
structure MayGive (target : LootingPlayer) (loot : Loot) (item : LootItem) (dest : List ItemPosCount) :
    Prop extends Admits S w player lootguid slotid targetGuid target loot item dest where
  near : player.isAtGroupRewardDistance rules target = true
  notLooted : item.isLooted = false

/-- He gives what he may give, and nothing changes where he may not. -/
structure GivesAsStated : Prop where
  gives : ∀ target loot item dest,
    MayGive S rules w player lootguid slotid targetGuid target loot item dest →
    w.handleLootMasterGive S rules player lootguid slotid targetGuid =
      (w.give S player target loot slotid item dest, .given)
  refuses : (∀ target loot item dest,
    ¬ MayGive S rules w player lootguid slotid targetGuid target loot item dest) →
    (w.handleLootMasterGive S rules player lootguid slotid targetGuid).1 = w ∧
      (w.handleLootMasterGive S rules player lootguid slotid targetGuid).2 ≠ .given

variable {S rules w player lootguid slotid targetGuid}
variable {target : LootingPlayer} {loot : Loot} {item : LootItem} {dest : List ItemPosCount}

/-- **The other checks done, the handler gives to those who are far.** -/
theorem handleLootMasterGive_of_admits
    (h : Admits S w player lootguid slotid targetGuid target loot item dest) :
    w.handleLootMasterGive S rules player lootguid slotid targetGuid =
      if player.isAtGroupRewardDistance rules target then (w, .error .tooFar)
      else (w.give S player target loot slotid item dest, .given) := by
  have hinstance : player.body.location.instanceId = target.body.location.instanceId := by
    have hmap := h.inMap
    simp only [LootingPlayer.isInMap, Bool.and_eq_true, decide_eq_true_eq] at hmap
    exact hmap.2
  simp [handleLootMasterGive, h.master, h.found, h.looting, h.raid, h.inMap, h.opened, h.inSlot,
    h.room, hinstance]

theorem handleLootMasterGive_of_not_admits (h : ∀ target loot item dest,
      ¬ Admits S w player lootguid slotid targetGuid target loot item dest) :
    (w.handleLootMasterGive S rules player lootguid slotid targetGuid).1 = w ∧
      (w.handleLootMasterGive S rules player lootguid slotid targetGuid).2 ≠ .given := by
  have hno : ∀ e : GiveAnswer, e ≠ .given → (w, e).1 = w ∧ (w, e).2 ≠ .given := fun e he => ⟨rfl, he⟩
  unfold handleLootMasterGive
  split
  · exact hno _ nofun
  rename_i hmaster
  split
  · exact hno _ nofun
  rename_i target hfound
  split
  · exact hno _ nofun
  rename_i hlooting
  split
  · exact hno _ nofun
  rename_i hraid
  split
  · exact hno _ nofun
  split
  · exact hno _ nofun
  split
  · exact hno _ nofun
  rename_i loot hopen
  split
  · exact hno _ nofun
  rename_i item hslot
  split
  · rename_i dest hroom
    simp only [Bool.or_eq_true, not_or, Bool.not_eq_true, Bool.not_eq_false'] at hraid
    exact absurd ⟨by simpa using hmaster, hfound, not_not.mp hlooting, hraid.1, hraid.2, hopen, hslot, hroom⟩
      (h target loot item dest)
  · exact hno _ nofun

theorem Admits.target_eq {target' : LootingPlayer} {loot' : Loot} {item' : LootItem}
    {dest' : List ItemPosCount}
    (h : Admits S w player lootguid slotid targetGuid target loot item dest)
    (h' : Admits S w player lootguid slotid targetGuid target' loot' item' dest') : target' = target :=
  Option.some.inj (h'.found.symm.trans h.found)

/-- **The master looter gives exactly what he may give** where another check refuses, or where the target
is near and the item is looted. -/
theorem givesAsStated_iff :
    GivesAsStated S rules w player lootguid slotid targetGuid ↔
      ∀ target loot item dest, Admits S w player lootguid slotid targetGuid target loot item dest →
        player.isAtGroupRewardDistance rules target = true ∧ item.isLooted = true := by
  constructor
  · intro hstated target loot item dest hadmits
    by_cases hnear : player.isAtGroupRewardDistance rules target = true
    · refine ⟨hnear, ?_⟩
      by_contra hlooted
      have hgives := hstated.gives target loot item dest ⟨hadmits, hnear, by simpa using hlooted⟩
      rw [handleLootMasterGive_of_admits hadmits, if_pos hnear] at hgives
      cases congrArg Prod.snd hgives
    · have hno : ∀ target' loot' item' dest',
          ¬ MayGive S rules w player lootguid slotid targetGuid target' loot' item' dest' := by
        intro target' loot' item' dest' hmay
        rw [← hadmits.target_eq hmay.toAdmits] at hnear
        exact hnear hmay.near
      have hgiven := (hstated.refuses hno).2
      rw [handleLootMasterGive_of_admits hadmits, if_neg hnear] at hgiven
      exact absurd rfl hgiven
  · intro hrefused
    constructor
    · intro target loot item dest hmay
      have hlooted := (hrefused target loot item dest hmay.toAdmits).2
      rw [hmay.notLooted] at hlooted
      cases hlooted
    · intro _
      by_cases hadmits : ∃ target loot item dest,
          Admits S w player lootguid slotid targetGuid target loot item dest
      · obtain ⟨target, loot, item, dest, hadmits⟩ := hadmits
        rw [handleLootMasterGive_of_admits hadmits, if_pos (hrefused target loot item dest hadmits).1]
        exact ⟨rfl, nofun⟩
      · push Not at hadmits
        exact handleLootMasterGive_of_not_admits hadmits

theorem handleLootMasterGive_cases :
    let r := w.handleLootMasterGive S rules player lootguid slotid targetGuid
    r.2 ≠ .given ∧ r.1 = w ∨ r.2 = .given ∧ ∃ target loot item dest,
      Admits S w player lootguid slotid targetGuid target loot item dest ∧
        r.1 = w.give S player target loot slotid item dest := by
  by_cases hadmits : ∃ target loot item dest,
      Admits S w player lootguid slotid targetGuid target loot item dest
  · obtain ⟨target, loot, item, dest, hadmits⟩ := hadmits
    rw [handleLootMasterGive_of_admits hadmits]
    split
    · exact .inl ⟨nofun, rfl⟩
    · exact .inr ⟨rfl, target, loot, item, dest, hadmits, rfl⟩
  · push Not at hadmits
    obtain ⟨hsame, hnot⟩ := handleLootMasterGive_of_not_admits hadmits
    exact .inl ⟨hnot, hsame⟩

theorem Admits.loot_eq (h : Admits S w player lootguid slotid targetGuid target loot item dest) :
    w.loots player.map player.lootGuid = some loot := by
  have hopen := h.opened
  unfold lootOf at hopen
  split at hopen
  · next hkind => rwa [hkind]
  · next hkind => rwa [hkind]
  · cases hopen

/-- A gift is an award. -/
theorem Admits.give_loots (h : Admits S w player lootguid slotid targetGuid target loot item dest) :
    (w.give S player target loot slotid item dest).loots =
      Function.update w.loots player.map (Function.update (w.loots player.map) player.lootGuid
        (some (loot.award (.give slotid true true true)))) := by
  simp [give, Loot.award, h.inSlot]

/-- To the loot that is open, the handler does what an award does. -/
theorem handleLootMasterGive_award (hloot : w.loots player.map player.lootGuid = some loot) :
    ∃ eligible canStore allowed,
      (w.handleLootMasterGive S rules player lootguid slotid targetGuid).1.loots player.map
        player.lootGuid = some (loot.award (.give slotid eligible canStore allowed)) := by
  rcases handleLootMasterGive_cases with ⟨-, hsame⟩ | ⟨-, target, loot', item, dest, hadmits, hgive⟩
  · refine ⟨false, true, true, ?_⟩
    rw [hsame, hloot]
    rfl
  · cases hloot.symm.trans hadmits.loot_eq
    exact ⟨true, true, true, by rw [hgive, hadmits.give_loots, Function.update_self, Function.update_self]⟩

/-! ## Every run -/

/-- A request, with the players, groups and bags as they are when it comes. -/
structure GiveRequest (Bags : Type) where
  players : ℕ → Option LootingPlayer
  groups : ℕ → LootGroup
  bags : ℕ → Bags
  player : LootingPlayer
  lootguid : LootGuid
  slotid : ℕ
  targetGuid : ℕ

/-- The loots of the objects. -/
abbrev ObjectLoots : Type := MapKey → LootGuid → Option Loot

variable (S rules) in
def answer (loots : ObjectLoots) (r : GiveRequest Bags) : LootWorld Bags × GiveAnswer :=
  handleLootMasterGive S rules ⟨r.players, r.groups, loots, r.bags⟩ r.player r.lootguid r.slotid r.targetGuid

variable (S rules) in
def step (loots : ObjectLoots) (r : GiveRequest Bags) : ObjectLoots := (answer S rules loots r).1.loots

variable (S rules) in
/-- What is given is one unit. -/
def GivesSingle (loots : ObjectLoots) (r : GiveRequest Bags) : Prop :=
  (answer S rules loots r).2 = .given → ∀ loot, loots r.player.map r.player.lootGuid = some loot →
    loot.Single r.slotid

theorem step_cases (loots : ObjectLoots) (r : GiveRequest Bags) :
    (answer S rules loots r).2 ≠ .given ∧ step S rules loots r = loots ∨ ∃ loot,
      (answer S rules loots r).2 = .given ∧ loots r.player.map r.player.lootGuid = some loot ∧
        loot.hands (.give r.slotid true true true) = true ∧
        step S rules loots r = Function.update loots r.player.map (Function.update (loots r.player.map)
          r.player.lootGuid (some (loot.award (.give r.slotid true true true)))) := by
  rcases handleLootMasterGive_cases (w := ⟨r.players, r.groups, loots, r.bags⟩) with
    ⟨hnot, hsame⟩ | ⟨hgiven, target, loot, item, dest, hadmits, hgive⟩
  · exact .inl ⟨hnot, congrArg LootWorld.loots hsame⟩
  · refine .inr ⟨loot, hgiven, hadmits.loot_eq, ?_, (congrArg LootWorld.loots hgive).trans hadmits.give_loots⟩
    simp [Loot.hands, hadmits.inSlot]

/-- What holds of every loot. -/
def Each (P : Loot → Prop) (loots : ObjectLoots) : Prop := ∀ map guid loot, loots map guid = some loot → P loot

/-- **The counters of all loots stay exact just if each gift is of one unit**, whatever requests come, and
whoever is where when they come. -/
theorem loots_exact_iff {loots : ObjectLoots} (sound : Each Loot.Sound loots) (rs : List (GiveRequest Bags)) :
    (∀ l, l <+: rs → Each Loot.Exact (l.foldl (step S rules) loots)) ↔
      Lib.AllAlong (step S rules) (GivesSingle S rules) loots rs := by
  have keeps (loots : ObjectLoots) (r : GiveRequest Bags) (h : Each Loot.Sound loots)
      (hsingle : GivesSingle S rules loots r) : Each Loot.Sound (step S rules loots r) := by
    rcases step_cases loots r with ⟨-, hsame⟩ | ⟨loot, hgiven, hloot, -, hgives⟩
    · rwa [hsame]
    · intro map guid loot' hloot'
      rw [hgives] at hloot'
      simp only [Function.update_apply, apply_ite (fun f : LootGuid → Option Loot => f guid)] at hloot'
      split_ifs at hloot' with hmap hguid
      · cases hloot'
        exact (h _ _ loot hloot).award fun _ => hsingle hgiven loot hloot
      · exact h _ _ loot' (hmap ▸ hloot')
      · exact h _ _ loot' hloot'
  have breaks (loots : ObjectLoots) (r : GiveRequest Bags) (h : Each Loot.Sound loots)
      (hexact : Each Loot.Exact (step S rules loots r)) : GivesSingle S rules loots r := by
    rcases step_cases loots r with ⟨hnot, -⟩ | ⟨loot, -, hloot, hhands, hgives⟩
    · exact fun hgiven => absurd hgiven hnot
    · intro _ loot' hloot'
      cases hloot.symm.trans hloot'
      refine (h _ _ loot hloot).handsSingle (hexact r.player.map r.player.lootGuid _ ?_) hhands
      rw [hgives, Function.update_self, Function.update_self]
  exact Lib.always_iff_allAlong keeps (fun _ h map guid loot hloot => (h map guid loot hloot).right) breaks sound rs

/-! ### A gift to the player beside the master looter -/

def roomForAll : Storage ℕ := ⟨fun _ _ _ => (.ok, []), fun count _ _ => count + 1⟩

def beside : RewardRules := ⟨fun _ _ => 0, 74⟩

def lootingPlayer (guid : ℕ) : LootingPlayer :=
  ⟨guid, some 1, none, ⟨⟨0, 0, 0, 0, 0⟩, true, none⟩, .creature 7, fun _ => true⟩

def oneItem : LootItem := ⟨25, [], none, 1, false, true, false, false, true, false, false⟩

def oneItemLoot : Loot := { Loot.new 0 with items := [oneItem], unlootedCount := 1 }

def twoLooters : LootWorld ℕ where
  players guid := if guid = 1 ∨ guid = 2 then some (lootingPlayer guid) else none
  groups _ := ⟨1, .masterLoot⟩
  loots _ _ := some oneItemLoot
  bags _ := 0

theorem not_givesAsStated_twoLooters :
    ¬ GivesAsStated roomForAll beside twoLooters (lootingPlayer 1) (.creature 7) 0 2 := by
  intro hstated
  have hmay : MayGive roomForAll beside twoLooters (lootingPlayer 1) (.creature 7) 0 2 (lootingPlayer 2)
      oneItemLoot oneItem [] :=
    ⟨⟨rfl, rfl, rfl, rfl, rfl, rfl, rfl, rfl⟩, by decide, rfl⟩
  have hgives := congrArg Prod.snd (hstated.gives _ _ _ _ hmay)
  revert hgives
  decide

/-- The other player is far away, and gets the item. -/
theorem loots_exact_iff_twoLooters :
    let far : RewardRules := ⟨fun _ _ => 100, 74⟩
    let rs : List (GiveRequest ℕ) :=
      [⟨twoLooters.players, twoLooters.groups, twoLooters.bags, lootingPlayer 1, .creature 7, 0, 2⟩]
    (∀ l, l <+: rs → Each Loot.Exact (l.foldl (step roomForAll far) twoLooters.loots)) ↔
      Lib.AllAlong (step roomForAll far) (GivesSingle roomForAll far) twoLooters.loots rs := by
  refine loots_exact_iff ?_ _
  rintro _ _ _ ⟨⟩
  refine ⟨by decide, by decide, by decide, by decide, fun place item hitem _ => ?_⟩
  cases place with
  | zero =>
    cases hitem
    rfl
  | succ place => cases hitem

end LootWorld

end Sunstrider.Loots
