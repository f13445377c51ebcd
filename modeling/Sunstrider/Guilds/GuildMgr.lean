import Sunstrider.Guilds.Bank

/-!
# The loading of guild banks

`GuildMgr::UnloadGuildBank` and `GuildMgr::LoadGuildBank`, with the completion of its query, which runs
later and has the rows of `guild_bank_item` for one guild.
-/

namespace Sunstrider.Guilds

open Sunstrider.Items (Item)

inductive GuildBankLoadState
  | unloaded
  | loading
  | loaded
  deriving DecidableEq

/-- A row of `guild_bank_item` with its item. -/
structure BankItemRow where
  tabId : UInt8
  slotId : UInt8
  item : Item

/-- What the loading of an item asks: `ObjectMgr::GetItemTemplate` of the entry, and
`Item::LoadFromDB`. -/
structure ItemLoadEnv where
  hasTemplate : ℕ → Bool
  loads : Item → Bool

def BankTab.loadItemFromDB (I : ItemLoadEnv) (t : BankTab) (row : BankItemRow) : BankTab :=
  if h : row.slotId.toNat < guildBankMaxSlots then
    if !I.hasTemplate row.item.entry then t
    else if !I.loads row.item then t
    else { t with items := Function.update t.items ⟨row.slotId.toNat, h⟩ (some row.item) }
  else t

namespace Guild

variable (g : Guild)

def unloadGuildBank : Guild := { g with bankTabs := [] }

def setBankLoaded (loaded : Bool) : Guild := { g with bankLoaded := loaded }

def loadBankItemFromDB (I : ItemLoadEnv) (row : BankItemRow) : Guild :=
  if g.getPurchasedTabsSize ≤ row.tabId.toNat then g
  else { g with bankTabs := g.bankTabs.modify row.tabId.toNat fun t => t.loadItemFromDB I row }

end Guild

/-- The guilds of `GuildMgr`, and the states of their banks. -/
structure GuildMgr where
  guildStore : ℕ → Option Guild
  guildBankLoadStates : ℕ → Option GuildBankLoadState

namespace GuildMgr

variable (mgr : GuildMgr)

/-- A write to a guild of the store. -/
def writeGuild (guildId : ℕ) (f : Guild → Guild) : GuildMgr :=
  { mgr with guildStore := Function.update mgr.guildStore guildId ((mgr.guildStore guildId).map f) }

/-- A write to the states of the banks. -/
def setLoadState (guildId : ℕ) (state : GuildBankLoadState) : GuildMgr :=
  { mgr with guildBankLoadStates := Function.update mgr.guildBankLoadStates guildId (some state) }

def unloadGuildBank (guildId : ℕ) : GuildMgr :=
  if (mgr.guildStore guildId).isSome then
    (mgr.writeGuild guildId fun g => g.unloadGuildBank.setBankLoaded false).setLoadState guildId
      .unloaded
  else mgr

/-- `GuildMgr::LoadGuildBank`, and whether it starts a query. -/
def loadGuildBank (guildId : ℕ) : GuildMgr × Bool :=
  match mgr.guildBankLoadStates guildId with
  | some .loading | some .loaded => (mgr, false)
  | some .unloaded | none => (mgr.setLoadState guildId .loading, true)

/-- The completion of the query of `LoadGuildBank`. -/
def guildBankLoaded (I : ItemLoadEnv) (guildId : ℕ) (rows : List BankItemRow) : GuildMgr :=
  (rows.foldl (fun mgr row =>
    mgr.writeGuild guildId fun g => (g.loadBankItemFromDB I row).setBankLoaded true) mgr).setLoadState
      guildId .loaded

/-- `UnloadGuildBank`, `LoadGuildBank`, and the completion of the query if there is one. -/
def reloadGuildBank (I : ItemLoadEnv) (guildId : ℕ) (rows : List BankItemRow) : GuildMgr :=
  match (mgr.unloadGuildBank guildId).loadGuildBank guildId with
  | (mgr, true) => mgr.guildBankLoaded I guildId rows
  | (mgr, false) => mgr

end GuildMgr

end Sunstrider.Guilds
