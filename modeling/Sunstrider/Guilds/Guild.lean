import Sunstrider.Items.Item
import Sunstrider.Lib.Keyed
import Sunstrider.Player.Money

/-!
# Guilds

The members, ranks, rights and money of `Guild.cpp`. A player is named by his guid, and a disbanded
guild is `none`. The members of a guild are an unordered map in the source: the order of the list is
the order in which the loops go over it.

Whether a character exists, and whether he is in some other guild, are in the requests. Notes, events,
broadcasts and the database are left out.
-/

namespace Sunstrider.Guilds

open Sunstrider.Lib (addU32 subU32 toInt32 replaceKey removeKey)
open Sunstrider.Player (maxMoneyAmount)

def guildRanksMinCount : ℕ := 5

def guildRanksMaxCount : ℕ := 10

def guildRankNone : ℕ := 0xFF

def guildBankMaxTabs : ℕ := 6

def guildBankMaxSlots : ℕ := 98

/-- `GUILD_WITHDRAW_MONEY_UNLIMITED` and `GUILD_WITHDRAW_SLOT_UNLIMITED`. -/
def guildWithdrawUnlimited : ℕ := 0xFFFFFFFF

def tabUndefined : ℕ := 0xFF

def grGuildmaster : ℕ := 0

def grOfficer : ℕ := 1

/-! ## Rights -/

/-- `GuildRankRights`. -/
abbrev Rights : Type := BitVec 32

def grRightEmpty : Rights := 0x00000040
def grRightGChatListen : Rights := grRightEmpty ||| 0x00000001
def grRightGChatSpeak : Rights := grRightEmpty ||| 0x00000002
def grRightOffChatListen : Rights := grRightEmpty ||| 0x00000004
def grRightOffChatSpeak : Rights := grRightEmpty ||| 0x00000008
def grRightInvite : Rights := grRightEmpty ||| 0x00000010
def grRightRemove : Rights := grRightEmpty ||| 0x00000020
def grRightPromote : Rights := grRightEmpty ||| 0x00000080
def grRightDemote : Rights := grRightEmpty ||| 0x00000100
def grRightSetMotd : Rights := grRightEmpty ||| 0x00001000
def grRightEpNote : Rights := grRightEmpty ||| 0x00002000
def grRightViewOffNote : Rights := grRightEmpty ||| 0x00004000
def grRightEOffNote : Rights := grRightEmpty ||| 0x00008000
def grRightModifyGuildInfo : Rights := grRightEmpty ||| 0x00010000
def grRightWithdrawGoldLock : Rights := 0x00020000
def grRightWithdrawRepair : Rights := 0x00040000
def grRightWithdrawGold : Rights := 0x00080000
def grRightCreateGuildEvent : Rights := 0x00100000
def grRightAll : Rights := 0x001DF1FF

/-! ## Ranks -/

structure GuildBankRightsAndSlots where
  tabId : ℕ
  rights : ℕ
  slots : ℕ
  deriving DecidableEq, Repr

def GuildBankRightsAndSlots.setGuildMasterValues (r : GuildBankRightsAndSlots) :
    GuildBankRightsAndSlots := { r with rights := 0xFF, slots := guildWithdrawUnlimited }

structure RankInfo where
  id : ℕ
  name : String
  rights : Rights
  bankMoneyPerDay : ℕ
  bankTabRightsAndSlots : List GuildBankRightsAndSlots
  deriving DecidableEq, Repr

namespace RankInfo

def new (rankId : ℕ) (name : String) (rights : Rights) (money : ℕ) : RankInfo :=
  { id := rankId
    name := name
    rights := rights
    bankMoneyPerDay := if rankId ≠ grGuildmaster then money else guildWithdrawUnlimited
    bankTabRightsAndSlots := List.replicate guildBankMaxTabs ⟨tabUndefined, 0, 0⟩ }

/-- `RankInfo::LoadFromDB`, with the tabs still to come. -/
def loadFromDB (rankId : ℕ) (name : String) (rights : Rights) (money : ℕ) : RankInfo :=
  { id := rankId
    name := name
    rights := if rankId = grGuildmaster then rights ||| grRightAll else rights
    bankMoneyPerDay := money
    bankTabRightsAndSlots := List.replicate guildBankMaxTabs ⟨tabUndefined, 0, 0⟩ }

variable (r : RankInfo)

def setRights (rights : Rights) : RankInfo :=
  { r with rights := if r.id = grGuildmaster then grRightAll else rights }

def setBankMoneyPerDay (money : ℕ) : RankInfo :=
  { r with bankMoneyPerDay := if r.id = grGuildmaster then guildWithdrawUnlimited else money }

def setBankTabSlotsAndRights (rs : GuildBankRightsAndSlots) : RankInfo :=
  let rs := if r.id = grGuildmaster then rs.setGuildMasterValues else rs
  { r with bankTabRightsAndSlots := r.bankTabRightsAndSlots.set rs.tabId rs }

def createMissingTabsIfNeeded (tabs : ℕ) : RankInfo :=
  { r with bankTabRightsAndSlots := r.bankTabRightsAndSlots.mapIdx fun i rs =>
      if tabs ≤ i || rs.tabId = i then rs
      else if r.id = grGuildmaster then { rs with tabId := i }.setGuildMasterValues
      else { rs with tabId := i } }

def getBankTabRights (tabId : ℕ) : ℕ :=
  (r.bankTabRightsAndSlots[tabId]?.map GuildBankRightsAndSlots.rights).getD 0

def getBankTabSlotsPerDay (tabId : ℕ) : ℤ :=
  toInt32 ((r.bankTabRightsAndSlots[tabId]?.map GuildBankRightsAndSlots.slots).getD 0)

end RankInfo

/-! ## Members and the bank -/

/-- `Guild::Member`. The last withdraw value is of money, the others of the tabs. -/
structure Member where
  guid : ℕ
  name : String
  rankId : ℕ
  bankWithdraw : List ℕ
  deriving DecidableEq, Repr

def Member.new (guid : ℕ) (name : String) (rankId : ℕ) : Member :=
  ⟨guid, name, rankId, List.replicate (guildBankMaxTabs + 1) 0⟩

def Member.getBankWithdrawValue (m : Member) (tabId : ℕ) : ℤ :=
  if m.rankId = grGuildmaster then toInt32 guildWithdrawUnlimited
  else toInt32 (m.bankWithdraw[tabId]?.getD 0)

def Member.updateBankWithdrawValue (m : Member) (tabId amount : ℕ) : Member :=
  { m with bankWithdraw := m.bankWithdraw.modify tabId (addU32 · amount) }

structure BankTab where
  name : String
  icon : String
  text : String
  items : Fin guildBankMaxSlots → Option Items.Item

structure Guild where
  leaderGuid : ℕ
  members : List Member
  ranks : List RankInfo
  bankTabs : List BankTab
  bankMoney : ℕ
  bankLoaded : Bool

namespace Guild

section Getters

variable (g : Guild)

/-- `_GetRanksSize`, an 8-bit number. -/
def getRanksSize : ℕ := g.ranks.length % 256

/-- `_GetLowestRankId`, an 8-bit number. -/
def getLowestRankId : ℕ := (g.ranks.length + 255) % 256

def getPurchasedTabsSize : ℕ := g.bankTabs.length % 256

def getRankInfo (rankId : ℕ) : Option RankInfo :=
  if rankId < g.getRanksSize then g.ranks[rankId]? else none

def getMember (guid : ℕ) : Option Member := g.members.find? fun m => m.guid = guid

/-- The member with a name. -/
def getMemberByName (name : String) : Option Member := g.members.find? fun m => m.name = name

def isLeader (guid : ℕ) : Bool :=
  guid = g.leaderGuid || (g.getMember guid).any fun m => m.rankId = grGuildmaster

def getRankRights (rankId : ℕ) : Rights := ((g.getRankInfo rankId).map RankInfo.rights).getD 0

def hasRankRight (guid : ℕ) (right : Rights) : Bool :=
  match g.getMember guid with
  | some m => g.getRankRights m.rankId &&& right ≠ grRightEmpty
  | none => false

def getRankBankMoneyPerDay (rankId : ℕ) : ℤ :=
  ((g.getRankInfo rankId).map fun r => toInt32 r.bankMoneyPerDay).getD 0

/-- `_GetMemberRemainingMoney`, of a member. -/
def getMemberRemainingMoney (m : Member) : ℤ :=
  if m.rankId = grGuildmaster then toInt32 guildWithdrawUnlimited
  else if g.getRankRights m.rankId &&& (grRightWithdrawRepair ||| grRightWithdrawGold) ≠ 0 then
    let remaining := g.getRankBankMoneyPerDay m.rankId - m.getBankWithdrawValue guildBankMaxTabs
    if 0 < remaining then remaining else 0
  else 0

end Getters

section Operations

variable (g : Guild)

/-! ## Ranks of members -/

/-- A write through the pointer of a member. -/
def writeMember (m : Member) : Guild := { g with members := replaceKey Member.guid m g.members }

/-- `Member::ChangeRank`, of the member with a guid. The rank is an 8-bit number. -/
def changeRank (guid newRank : ℕ) : Guild :=
  { g with members :=
      g.members.map fun m => if m.guid = guid then { m with rankId := newRank % 256 } else m }

def setLeaderGUID (guid : ℕ) : Guild := { g with leaderGuid := guid }.changeRank guid grGuildmaster

/-- `Guild::AddMember`, of a character that is or is not in some other guild, and exists or not. -/
def addMember (guid : ℕ) (name : String) (inGuild exist : Bool) (rankId : ℕ) : Guild :=
  if (g.getMember guid).isSome || inGuild then g
  else if !exist then g
  else
    let rankId := if rankId = guildRankNone then g.getLowestRankId else rankId
    { g with members := g.members ++ [Member.new guid name rankId] }

/-- The member of the highest rank, without the one with a guid. -/
def selectNewLeader (guid : ℕ) : Option Member :=
  (g.members.filter fun m => m.guid ≠ guid).foldl (fun newLeader m =>
    match newLeader with
    | none => some m
    | some l => if m.rankId < l.rankId then some m else some l) none

/-- `Guild::DeleteMember`, with `isDisbanding` false. -/
def deleteMember (guid : ℕ) : Option Guild :=
  let erase (g : Guild) : Guild := { g with members := removeKey Member.guid guid g.members }
  if g.leaderGuid = guid then
    (g.selectNewLeader guid).map fun newLeader => erase (g.setLeaderGUID newLeader.guid)
  else some (erase g)

def changeMemberRank (guid newRank : ℕ) : Guild :=
  if newRank ≤ g.getLowestRankId && (g.getMember guid).isSome then g.changeRank guid newRank else g

def handleSetLeader (player : ℕ) (name : String) : Guild :=
  if !g.isLeader player then g
  else
    match g.getMember player, g.getMemberByName name with
    | some _, some newLeader => (g.setLeaderGUID newLeader.guid).changeRank player grOfficer
    | _, _ => g

def handleLeaveMember (player : ℕ) : Option Guild :=
  if g.isLeader player then if 1 < g.members.length then some g else none
  else g.deleteMember player

def handleRemoveMember (player : ℕ) (name : String) : Option Guild :=
  if !g.hasRankRight player grRightRemove then some g
  else
    match g.getMemberByName name, g.getMember player with
    | some member, some memberMe =>
      if member.rankId = grGuildmaster then some g
      else if member.rankId ≤ memberMe.rankId then some g
      else g.deleteMember member.guid
    | _, _ => some g

def handleUpdateMemberRank (player : ℕ) (name : String) (demote : Bool) : Guild :=
  if !g.hasRankRight player (if demote then grRightDemote else grRightPromote) then g
  else
    match g.getMemberByName name, g.getMember player with
    | some member, some memberMe =>
      if member.guid = player then g
      else if demote then
        if member.rankId ≤ memberMe.rankId then g
        else if g.getLowestRankId ≤ member.rankId then g
        else g.changeRank member.guid (member.rankId + 1)
      else
        if member.rankId ≤ (memberMe.rankId + 1) % 256 then g
        else g.changeRank member.guid (member.rankId - 1)
    | _, _ => g

/-! ## Ranks of the guild -/

/-- `Guild::_CreateRank`. The tabs are created in a copy of the rank. -/
def createRank (name : String) (rights : Rights) : Guild :=
  let newRankId := g.getRanksSize
  if guildRanksMaxCount ≤ newRankId then g
  else { g with ranks := g.ranks ++ [RankInfo.new newRankId name rights 0] }

def handleAddNewRank (player : ℕ) (name : String) : Guild :=
  if guildRanksMaxCount ≤ g.getRanksSize then g
  else if g.isLeader player then g.createRank name (grRightGChatListen ||| grRightGChatSpeak)
  else g

/-- `Guild::HandleRemoveRank`: whatever the rank, the last one goes. -/
def handleRemoveRank (player rankId : ℕ) : Guild :=
  if g.getRanksSize ≤ guildRanksMinCount || g.getRanksSize ≤ rankId || !g.isLeader player then g
  else { g with ranks := g.ranks.dropLast }

def handleRemoveLowestRank (player : ℕ) : Guild := g.handleRemoveRank player g.getLowestRankId

/-- A write through the pointer of a rank. -/
def writeRank (rankId : ℕ) (f : RankInfo → RankInfo) : Guild :=
  if rankId < g.getRanksSize then { g with ranks := g.ranks.modify rankId f } else g

def setRankBankTabRightsAndSlots (rankId : ℕ) (rs : GuildBankRightsAndSlots) : Guild :=
  if g.getPurchasedTabsSize ≤ rs.tabId then g
  else g.writeRank rankId fun r => r.setBankTabSlotsAndRights rs

def handleSetRankInfo (player rankId : ℕ) (name : String) (rights : Rights) (moneyPerDay : ℕ)
    (rightsAndSlots : List GuildBankRightsAndSlots) : Guild :=
  if !g.isLeader player then g
  else
    match g.getRankInfo rankId with
    | none => g
    | some _ =>
      let g := g.writeRank rankId fun r => { r with name := name }.setRights rights
      let g := g.writeRank rankId fun r => r.setBankMoneyPerDay moneyPerDay
      rightsAndSlots.foldl (fun g rs => g.setRankBankTabRightsAndSlots rankId rs) g

/-! ## Money -/

/-- `Guild::_ModifyBankMoney`, a 64-bit number. -/
def modifyBankMoney (amount : ℕ) (add : Bool) : Guild :=
  if add then { g with bankMoney := (g.bankMoney + amount) % 2 ^ 64 }
  else if g.bankMoney < amount then g
  else { g with bankMoney := g.bankMoney - amount }

/-- `Guild::HandleMemberDepositMoney`, of an unsigned amount. -/
def handleMemberDepositMoney (purse amount : ℕ) : Guild × ℕ :=
  (g.modifyBankMoney amount true, Player.modifyMoney purse (-toInt32 amount))

/-- `Guild::HandleMemberWithdrawMoney`, of an unsigned amount: the guild and the purse, unless it
answers false. -/
def handleMemberWithdrawMoney (player purse amount : ℕ) (repair : Bool) : Option (Guild × ℕ) :=
  let amount := min amount maxMoneyAmount
  if g.bankMoney < amount then none
  else
    match g.getMember player with
    | none => none
    | some member =>
      if (g.getMemberRemainingMoney member) % 2 ^ 32 < amount then none
      else if !repair && !Player.modifyMoneyResult purse amount then none
      else
        let purse := if repair then purse else Player.modifyMoney purse amount
        let g := g.writeMember (member.updateBankWithdrawValue guildBankMaxTabs amount)
        some (g.modifyBankMoney amount false, purse)

end Operations

/-! ## Creation and loading -/

def createDefaultGuildRanks (g : Guild) : Guild :=
  let plain := grRightGChatListen ||| grRightGChatSpeak
  ((((g.createRank "Guild Master" grRightAll).createRank "Officer" grRightAll).createRank
    "Veteran" plain).createRank "Member" plain).createRank "Initiate" plain

/-- Some rank of a loaded guild has not the id of its place, or there are too few or too many. -/
def brokenRanks (g : Guild) : Bool :=
  g.getRanksSize < guildRanksMinCount || guildRanksMaxCount < g.getRanksSize ||
    (List.range g.getRanksSize).any fun i => (g.ranks[i]?).any fun r => r.id ≠ i

/-- The ranks in `Guild::Validate`. -/
def validateRanks (g : Guild) : Guild :=
  if g.brokenRanks then { g with ranks := [] }.createDefaultGuildRanks
  else { g with ranks := g.ranks.map fun r => r.createMissingTabsIfNeeded g.getPurchasedTabsSize }

/-- The members' ranks in `Guild::Validate`. -/
def validateMembers (g : Guild) : Guild :=
  { g with members := g.members.map fun m =>
      if g.getRanksSize < m.rankId then { m with rankId := g.getLowestRankId } else m }

/-- The guild master in `Guild::Validate`. -/
def validateLeader (g : Guild) : Option Guild :=
  match g.getMember g.leaderGuid with
  | none => g.deleteMember g.leaderGuid
  | some pLeader =>
    some (if pLeader.rankId ≠ grGuildmaster then g.setLeaderGUID g.leaderGuid else g)

/-- Other guild masters in `Guild::Validate`. -/
def demoteOthers (g : Guild) : Guild :=
  { g with members := g.members.map fun m =>
      if m.rankId = grGuildmaster ∧ m.guid ≠ g.leaderGuid then { m with rankId := grOfficer } else m }

/-- `Guild::Validate`, with the option `Guild.AllowMultipleGuildMaster`. -/
def validate (allowMultipleGuildMaster : Bool) (g : Guild) : Option Guild :=
  g.validateRanks.validateMembers.validateLeader.map fun g =>
    if allowMultipleGuildMaster then g else g.demoteOthers

/-! ## Steps -/

/-- What members, game masters and the server ask of a guild. -/
inductive Op
  | addMember (guid : ℕ) (name : String) (inGuild exist : Bool) (rankId : UInt8)
  | deleteMember (guid : ℕ)
  | changeMemberRank (guid : ℕ) (newRank : UInt8)
  | setLeader (player : ℕ) (name : String)
  | leaveMember (player : ℕ)
  | removeMember (player : ℕ) (name : String)
  | updateMemberRank (player : ℕ) (name : String) (demote : Bool)
  | addNewRank (player : ℕ) (name : String)
  | removeLowestRank (player : ℕ)
  | setRankInfo (player : ℕ) (rankId : UInt8) (name : String) (rights : Rights) (moneyPerDay : UInt32)
      (rightsAndSlots : List GuildBankRightsAndSlots)
  | depositMoney (purse : ℕ) (amount : UInt32)
  | withdrawMoney (player purse : ℕ) (amount : UInt32) (repair : Bool)

/-- One operation on a guild. -/
def apply (g : Guild) : Op → Option Guild
  | .addMember guid name inGuild exist rankId => some (g.addMember guid name inGuild exist rankId.toNat)
  | .deleteMember guid => g.deleteMember guid
  | .changeMemberRank guid newRank => some (g.changeMemberRank guid newRank.toNat)
  | .setLeader player name => some (g.handleSetLeader player name)
  | .leaveMember player => g.handleLeaveMember player
  | .removeMember player name => g.handleRemoveMember player name
  | .updateMemberRank player name demote => some (g.handleUpdateMemberRank player name demote)
  | .addNewRank player name => some (g.handleAddNewRank player name)
  | .removeLowestRank player => some (g.handleRemoveLowestRank player)
  | .setRankInfo player rankId name rights moneyPerDay rs =>
    some (g.handleSetRankInfo player rankId.toNat name rights moneyPerDay.toNat rs)
  | .depositMoney purse amount => some (g.handleMemberDepositMoney purse amount.toNat).1
  | .withdrawMoney player purse amount repair =>
    some (((g.handleMemberWithdrawMoney player purse amount.toNat repair).map Prod.fst).getD g)

/-- One operation. Nothing can be asked of a disbanded guild. -/
def step (s : Option Guild) (op : Op) : Option Guild := s.bind fun g => g.apply op

end Guild

end Sunstrider.Guilds
