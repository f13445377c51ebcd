import Sunstrider.Guilds.GuildMgr

/-!
# Reloading the guild bank

A bank that is unloaded loses its tabs, and only the start of the server makes tabs. So every row that
is loaded afterwards is of a tab that is not there (`reloadGuildBank_eq`), and without rows the bank is
not even marked as loaded: `reload_never_restores`.
-/

namespace Sunstrider.Guilds

open Sunstrider.Items (Item)

namespace GuildMgr

variable {I : ItemLoadEnv} {mgr : GuildMgr} {guildId : ℕ} {g : Guild}

theorem writeGuild_self (f : Guild → Guild) (h : mgr.guildStore guildId = some g) :
    (mgr.writeGuild guildId f).guildStore guildId = some (f g) := by
  unfold writeGuild
  simp [h]

/-- Rows of a guild without tabs are skipped, and mark its bank as loaded. -/
theorem guildBankLoaded_eq (rows : List BankItemRow) (h : mgr.guildStore guildId = some g)
    (htabs : g.bankTabs = []) : (mgr.guildBankLoaded I guildId rows).guildStore guildId =
      some { g with bankLoaded := g.bankLoaded || !rows.isEmpty } := by
  show (rows.foldl _ mgr).guildStore guildId = _
  induction rows generalizing mgr g with
  | nil => simpa using h
  | cons row rows ih =>
    have hskipped : g.loadBankItemFromDB I row = g := by
      unfold Guild.loadBankItemFromDB Guild.getPurchasedTabsSize
      rw [htabs]
      exact if_pos (Nat.zero_le _)
    rw [List.foldl_cons, ih (writeGuild_self _ h) (by rw [hskipped]; exact htabs), hskipped]
    simp [Guild.setBankLoaded]

/-- **What a reload makes of a guild**: a bank without tabs, that is loaded if there were rows. -/
theorem reloadGuildBank_eq (rows : List BankItemRow) (h : mgr.guildStore guildId = some g) :
    (mgr.reloadGuildBank I guildId rows).guildStore guildId =
      some { g with
        bankTabs := []
        bankLoaded := !rows.isEmpty } := by
  have hunload : mgr.unloadGuildBank guildId = (mgr.writeGuild guildId fun g =>
      g.unloadGuildBank.setBankLoaded false).setLoadState guildId .unloaded := by
    unfold unloadGuildBank
    rw [h, Option.isSome_some, if_pos rfl]
  have hquery : (mgr.unloadGuildBank guildId).loadGuildBank guildId =
      ((mgr.unloadGuildBank guildId).setLoadState guildId .loading, true) := by
    have hstate : (mgr.unloadGuildBank guildId).guildBankLoadStates guildId = some .unloaded := by
      rw [hunload]
      exact Function.update_self ..
    unfold loadGuildBank
    rw [hstate]
  have hguild : ((mgr.unloadGuildBank guildId).setLoadState guildId .loading).guildStore guildId =
      some (g.unloadGuildBank.setBankLoaded false) := by
    rw [hunload]
    exact writeGuild_self _ h
  unfold reloadGuildBank
  rw [hquery]
  rw [guildBankLoaded_eq rows hguild rfl]
  rfl

/-! ## Restoration -/

/-- The rows are the items in the slots of the bank. -/
def StoredItems (g : Guild) (rows : List BankItemRow) : Prop :=
  ∀ (tabId slotId : UInt8) (item : Item), ⟨tabId, slotId, item⟩ ∈ rows ↔
    ∃ t, g.bankTabs[tabId.toNat]? = some t ∧ ∃ h : slotId.toNat < guildBankMaxSlots,
      t.items ⟨slotId.toNat, h⟩ = some item

/-- **What a reload should do**: the bank is marked as loaded, with the tabs and the items that it
had. -/
def Restored (mgr : GuildMgr) (guildId : ℕ) (g : Guild) : Prop :=
  ∃ g', mgr.guildStore guildId = some g' ∧ g'.bankLoaded = true ∧ g'.bankTabs = g.bankTabs

/-- **No reload restores a bank.** -/
theorem reload_never_restores (I : ItemLoadEnv) (mgr : GuildMgr) (guildId : ℕ) (g : Guild)
    (rows : List BankItemRow) (hg : mgr.guildStore guildId = some g) (hrows : StoredItems g rows) :
    ¬ Restored (mgr.reloadGuildBank I guildId rows) guildId g := by
  rintro ⟨g', hg', hloaded, htabs⟩
  rw [reloadGuildBank_eq rows hg] at hg'
  obtain rfl := Option.some.inj hg'
  cases rows with
  | nil => exact Bool.false_ne_true hloaded
  | cons row rows =>
    -- a row is of a slot of a tab, and there is none left
    obtain ⟨t, ht, -⟩ := (hrows row.tabId row.slotId row.item).mp List.mem_cons_self
    rw [← htabs] at ht
    cases ht

/-- A guild of its leader with one tab, and with an item in its first slot or without. -/
def guildOfTab (item : Option Item) : Guild :=
  { leaderGuid := 1
    members := [.new 1 "Ada" 0]
    ranks := []
    bankTabs := [{
      name := ""
      icon := ""
      text := ""
      items := fun slot => if slot.val = 0 then item else none }]
    bankMoney := 0
    bankLoaded := true }

/-- The guild is the only one, and its bank is loaded. -/
def mgrOf (g : Guild) : GuildMgr :=
  { guildStore := fun guildId => if guildId = 1 then some g else none
    guildBankLoadStates := fun guildId => if guildId = 1 then some .loaded else none }

theorem guildOfTab_items {item : Option Item} {tabId : UInt8} {t : BankTab}
    (h : (guildOfTab item).bankTabs[tabId.toNat]? = some t) :
    tabId = 0 ∧ ∀ slot, t.items slot = if slot.val = 0 then item else none := by
  obtain ⟨hlt, -⟩ := List.getElem?_eq_some_iff.mp h
  have hzero : tabId.toNat = 0 := Nat.lt_one_iff.mp hlt
  have htab : t = { name := "", icon := "", text := "", items := fun slot =>
      if slot.val = 0 then item else none } := List.mem_singleton.mp (List.mem_of_getElem? h)
  refine ⟨UInt8.toNat_inj.mp hzero, fun slot => ?_⟩
  rw [htab]

theorem storedItems_guildOfTab (item : Option Item) :
    StoredItems (guildOfTab item) (item.toList.map fun item => ⟨0, 0, item⟩) := by
  intro tabId slotId a
  constructor
  · intro h
    obtain ⟨b, hb, heq⟩ := List.mem_map.mp h
    cases heq
    exact ⟨_, rfl, by decide, Option.mem_toList.mp hb⟩
  · rintro ⟨t, ht, hslot, ha⟩
    obtain ⟨rfl, hitems⟩ := guildOfTab_items ht
    rw [hitems] at ha
    split at ha
    · next hzero =>
      obtain rfl : slotId = 0 := UInt8.toNat_inj.mp hzero
      exact List.mem_map.mpr ⟨a, Option.mem_toList.mpr ha, rfl⟩
    · cases ha

/-- An empty tab is lost, and the bank is not marked as loaded. -/
theorem reload_never_restores_empty :
    ¬ Restored ((mgrOf (guildOfTab none)).reloadGuildBank ⟨fun _ => true, fun _ => true⟩ 1 []) 1
      (guildOfTab none) :=
  reload_never_restores _ (mgrOf (guildOfTab none)) 1 (guildOfTab none) [] rfl
    (storedItems_guildOfTab none)

/-- An item is lost with its tab. -/
theorem reload_loses_items :
    ¬ ∀ (I : ItemLoadEnv) (mgr : GuildMgr) (guildId : ℕ) (g : Guild) (rows : List BankItemRow),
      mgr.guildStore guildId = some g → StoredItems g rows →
      Restored (mgr.reloadGuildBank I guildId rows) guildId g := by
  intro h
  let item : Item := ⟨1, 7, 5, false, true, false⟩
  obtain ⟨g', hg', -, htabs⟩ := h ⟨fun _ => true, fun _ => true⟩ (mgrOf (guildOfTab (some item))) 1
    (guildOfTab (some item)) _ rfl (storedItems_guildOfTab (some item))
  rw [reloadGuildBank_eq _ rfl] at hg'
  obtain rfl := Option.some.inj hg'
  cases htabs

end GuildMgr

end Sunstrider.Guilds
