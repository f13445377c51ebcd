import Sunstrider.Lib.Keyed
import Sunstrider.Player.Money
import Mathlib.Logic.Function.Basic

/-!
# The auction house

`AuctionHouseHandler.cpp` and the parts of `AuctionHouseMgr.cpp` that sell, expire and cancel
auctions. Characters are the elements of a type `C`; the server's character cache knows all of them
(`Accounts`).

What the handlers ask of the rest of the server is in their requests and in a `Moment`: the NPC that
the player can interact with, the item that the player offers, who is online and from where, the game
time. The computations in floating point are parameters (`AuctionConfig`). Packets to clients, the
database and the logs are left out.

`AuctionWorld.history` records what the handlers did, event by event.
-/

namespace Sunstrider.Auction

open Sunstrider.Lib (addU32 subU32 mulU32 toInt32 replaceKey removeKey)
open Sunstrider.Player (modifyMoney)

/-- The three maps of auctions of `AuctionHouseMgr`. -/
inductive House
  | horde
  | alliance
  | neutral
  deriving DecidableEq, Repr

/-- `AuctionHouseEntry`, of `AuctionHouse.dbc`. -/
structure AuctionHouseEntry where
  houseId : ℕ
  cutPercent : ℕ
  deriving DecidableEq, Repr

inductive MailAuctionAnswers
  | outbidded
  | won
  | successful
  | expired
  | cancelledToBidder
  | canceled
  | salePending
  deriving DecidableEq, Repr

/-- What `HandleAuctionSellItem` reads of the item that is offered. -/
structure SellItem where
  entry : ℕ
  count : ℕ
  sellPrice : ℕ
  canBeTraded : Bool
  conjured : Bool
  duration : ℕ
  deriving DecidableEq, Repr

/-- `AuctionEntry`. No bidder is `none`, where the source writes the guid 0. -/
structure AuctionEntry (C : Type) where
  id : ℕ
  itemGuid : ℕ
  itemEntry : ℕ
  itemCount : ℕ
  owner : C
  startbid : ℕ
  bid : ℕ
  buyout : ℕ
  expireTime : ℕ
  bidder : Option C
  deposit : ℕ
  depositTime : ℕ
  auctionHouseEntry : AuctionHouseEntry
  deriving DecidableEq

/-- A mail as `MailDraft` sends it. The first five fields are its subject, the next five the text of
its body. -/
structure Mail (C : Type) where
  receiver : C
  response : MailAuctionAnswers
  auction : ℕ
  itemEntry : ℕ
  itemCount : ℕ
  lowGuid : Option C
  bid : ℕ
  buyout : ℕ
  deposit : ℕ
  cut : ℕ
  money : ℕ
  item : Option ℕ
  deliverDelay : ℕ
  deriving DecidableEq

/-- What a handler did to an auction. The auction is recorded as it was before a bid and before a
buyout, and as it is sold, cancelled or expired. -/
inductive Event (C : Type)
  | bid (auction : AuctionEntry C) (bidder : C) (price : ℕ)
  | boughtOut (auction : AuctionEntry C) (buyer : C)
  | sold (auction : AuctionEntry C)
  | cancelled (auction : AuctionEntry C)
  | expired (auction : AuctionEntry C)

/-- The configuration, with the three computations in floating point: `uint32(n * rate / 100.f)` of
the cut, `GetAuctionDeposit`, and `uint32(etime * rate)` of the duration. -/
structure AuctionConfig where
  allowTwoSideInteraction : Bool
  scaleCut : ℕ → UInt32
  auctionDeposit : AuctionHouseEntry → ℕ → SellItem → UInt32
  auctionTime : ℕ → UInt32
  mailDeliveryDelay : ℕ

/-- The character cache. It knows the account of every character, and no account is 0. -/
structure Accounts (C : Type) where
  accountId : C → ℕ
  known : ∀ c, accountId c ≠ 0

/-- The answers of the server at one moment. -/
structure Moment (C : Type) where
  findPlayer : C → Bool
  findConnectedPlayer : C → Bool
  remoteAddress : C → ℕ
  gameTime : ℕ

def maxAuctions : ℕ := 240

/-- `MIN_AUCTION_TIME`, in seconds. -/
def minAuctionTime : ℕ := 12 * 3600

variable {C : Type}

namespace AuctionEntry

def getAuctionOutBid (a : AuctionEntry C) : ℕ :=
  let outbid := mulU32 (a.bid / 100) 5
  if outbid = 0 then 1 else outbid

def getAuctionCut (cfg : AuctionConfig) (a : AuctionEntry C) : ℕ :=
  let cutPercent := if cfg.allowTwoSideInteraction then 5 else a.auctionHouseEntry.cutPercent
  (cfg.scaleCut (mulU32 cutPercent a.bid)).toNat

/-- `BuildAuctionMailSubject` and `BuildAuctionMailBody`, with what is put into the mail. -/
def mail (a : AuctionEntry C) (receiver : C) (response : MailAuctionAnswers) (lowGuid : Option C)
    (bid deposit cut money : ℕ) (item : Option ℕ) (deliverDelay : ℕ) : Mail C :=
  ⟨receiver, response, a.id, a.itemEntry, a.itemCount, lowGuid, bid, a.buyout, deposit, cut, money,
    item, deliverDelay⟩

/-- A bid of this price buys the auction out. -/
def isBuyout (a : AuctionEntry C) (price : ℕ) : Bool := !(price < a.buyout || a.buyout = 0)

end AuctionEntry

/-- The purses, the auctions and the mails that were sent. -/
structure AuctionWorld (C : Type) where
  purse : C → ℕ
  auctions : House → List (AuctionEntry C)
  /-- The guids in `mAitems`. -/
  aItems : List ℕ
  mails : List (Mail C)
  history : List (Event C)
  nextAuctionId : ℕ

namespace AuctionWorld

/-- No auctions, no mails, and purses as they are loaded. -/
def initial (purse : C → Player.Purse) : AuctionWorld C := ⟨fun c => purse c, fun _ => [], [], [], [], 1⟩

section Primitives

variable (w : AuctionWorld C)

def sendMail (m : Mail C) : AuctionWorld C := { w with mails := w.mails ++ [m] }

def record (e : Event C) : AuctionWorld C := { w with history := w.history ++ [e] }

def getAuction (h : House) (id : ℕ) : Option (AuctionEntry C) :=
  (w.auctions h).find? fun a => a.id = id

def setAuctions (h : House) (l : List (AuctionEntry C)) : AuctionWorld C :=
  { w with auctions := Function.update w.auctions h l }

/-- `AuctionHouseObject::AddAuction`. Its id is higher than the others, so its place is the last. -/
def addAuction (h : House) (a : AuctionEntry C) : AuctionWorld C :=
  w.setAuctions h (w.auctions h ++ [a])

/-- A write through the pointer that `getAuction` answered. -/
def writeAuction (h : House) (a : AuctionEntry C) : AuctionWorld C :=
  w.setAuctions h (replaceKey AuctionEntry.id a (w.auctions h))

def removeAuction (h : House) (id : ℕ) : AuctionWorld C :=
  w.setAuctions h (removeKey AuctionEntry.id id (w.auctions h))

def addAItem (guid : ℕ) : AuctionWorld C := { w with aItems := guid :: w.aItems }

def removeAItem (guid : ℕ) : AuctionWorld C := { w with aItems := w.aItems.filter (· ≠ guid) }

def getAItem (guid : ℕ) : Option ℕ := if guid ∈ w.aItems then some guid else none

variable [DecidableEq C]

def modifyMoney (c : C) (amount : ℤ) : AuctionWorld C :=
  { w with purse := Function.update w.purse c (Player.modifyMoney (w.purse c) amount) }

def getAuctionsCount (h : House) (c : C) : ℕ := ((w.auctions h).filter fun a => a.owner = c).length

end Primitives

section Operations

variable (cfg : AuctionConfig) (acc : Accounts C) (m : Moment C)

/-! ## Mails -/

/-- `SendAuctionOutbiddedMail`, to the bidder the auction has had. -/
def sendAuctionOutbiddedMail (w : AuctionWorld C) (a : AuctionEntry C) (oldBidder : C) :
    AuctionWorld C :=
  if m.findPlayer oldBidder || acc.accountId oldBidder ≠ 0 then
    w.sendMail (a.mail oldBidder .outbidded (some a.owner) a.bid a.deposit (a.getAuctionCut cfg)
      a.bid none 0)
  else w

def sendAuctionCancelledToBidderMail (w : AuctionWorld C) (a : AuctionEntry C) (bidder : C) :
    AuctionWorld C :=
  if m.findPlayer bidder || acc.accountId bidder ≠ 0 then
    w.sendMail (a.mail bidder .cancelledToBidder (some a.owner) a.bid a.deposit 0 a.bid none 0)
  else w

def sendAuctionSalePendingMail (w : AuctionWorld C) (a : AuctionEntry C) : AuctionWorld C :=
  if m.findConnectedPlayer a.owner || acc.accountId a.owner ≠ 0 then
    w.sendMail (a.mail a.owner .salePending a.bidder a.bid a.deposit (a.getAuctionCut cfg) 0 none 0)
  else w

/-- `SendAuctionSuccessfulMail`: the seller gets `bid + deposit - cut`. -/
def sendAuctionSuccessfulMail (w : AuctionWorld C) (a : AuctionEntry C) : AuctionWorld C :=
  if m.findConnectedPlayer a.owner || acc.accountId a.owner ≠ 0 then
    let profit := subU32 (addU32 a.bid a.deposit) (a.getAuctionCut cfg)
    w.sendMail (a.mail a.owner .successful a.bidder a.bid a.deposit (a.getAuctionCut cfg) profit none
      cfg.mailDeliveryDelay)
  else w

def sendAuctionWonMail (w : AuctionWorld C) (a : AuctionEntry C) : AuctionWorld C :=
  match w.getAItem a.itemGuid, a.bidder with
  | some item, some bidder =>
    if m.findConnectedPlayer bidder || acc.accountId bidder ≠ 0 then
      w.sendMail (a.mail bidder .won (some a.owner) a.bid 0 0 0 (some item) 0)
    else w.removeAItem a.itemGuid
  | _, _ => w

def sendAuctionExpiredMail (w : AuctionWorld C) (a : AuctionEntry C) : AuctionWorld C :=
  match w.getAItem a.itemGuid with
  | some item =>
    if m.findConnectedPlayer a.owner || acc.accountId a.owner ≠ 0 then
      w.sendMail (a.mail a.owner .expired none 0 a.deposit 0 0 (some item) 0)
    else w.removeAItem a.itemGuid
  | none => w

/-- The end of an auction in `Update` and `RemoveAllAuctionsOf`: it expires without a bidder, and is
sold with one. -/
def finishAuction (w : AuctionWorld C) (h : House) (a : AuctionEntry C) : AuctionWorld C :=
  let w := if a.bidder.isNone then
      (w.sendAuctionExpiredMail acc m a).record (.expired a)
    else
      ((w.sendAuctionSuccessfulMail cfg acc m a).sendAuctionWonMail acc m a).record (.sold a)
  (w.removeAItem a.itemGuid).removeAuction h a.id

/-! ## Handlers -/

def update (w : AuctionWorld C) (h : House) : AuctionWorld C :=
  (w.auctions h).foldl (fun w a => if a.expireTime < m.gameTime then w.finishAuction cfg acc m h a else w) w

variable [DecidableEq C]

def removeAllAuctionsOfIn (w : AuctionWorld C) (h : House) (owner : C) : AuctionWorld C :=
  (w.auctions h).foldl (fun w a => if a.owner = owner then w.finishAuction cfg acc m h a else w) w

def removeAllAuctionsOf (w : AuctionWorld C) (owner : C) : AuctionWorld C :=
  let w := w.removeAllAuctionsOfIn cfg acc m .horde owner
  let w := w.removeAllAuctionsOfIn cfg acc m .alliance owner
  w.removeAllAuctionsOfIn cfg acc m .neutral owner

/-- An auctioneer that the player can interact with: the map of auctions of its faction, and the
entry of its house, if its faction has one. -/
structure Auctioneer where
  house : House
  entry : Option AuctionHouseEntry
  deriving DecidableEq

/-- The request of `HandleAuctionSellItem`, with the NPC and the item that it names, where the player
can interact with the one and has the other. -/
structure SellRequest where
  auctioneer : Option Auctioneer
  itemGuid : ℕ
  item : Option SellItem
  bid : ℕ
  buyout : ℕ
  etime : ℕ
  deriving DecidableEq

/-- The entry that `HandleAuctionSellItem` makes. -/
def newAuction (w : AuctionWorld C) (pl : C) (entry : AuctionHouseEntry) (r : SellRequest)
    (it : SellItem) (etime deposit : ℕ) : AuctionEntry C :=
  { id := w.nextAuctionId
    itemGuid := r.itemGuid
    itemEntry := it.entry
    itemCount := it.count
    owner := pl
    startbid := r.bid
    bid := 0
    buyout := r.buyout
    expireTime := m.gameTime + (cfg.auctionTime etime).toNat
    bidder := none
    deposit := deposit
    depositTime := m.gameTime
    auctionHouseEntry := entry }

/-- The end of `HandleAuctionSellItem`, once nothing speaks against the auction. -/
def startAuction (w : AuctionWorld C) (pl : C) (h : House) (entry : AuctionHouseEntry)
    (r : SellRequest) (it : SellItem) (etime deposit : ℕ) : AuctionWorld C :=
  let a := w.newAuction cfg m pl entry r it etime deposit
  let w := w.modifyMoney pl (-toInt32 deposit)
  let w := { w with nextAuctionId := w.nextAuctionId + 1 }
  (w.addAuction h a).addAItem r.itemGuid

def handleAuctionSellItem (w : AuctionWorld C) (pl : C) (r : SellRequest) : AuctionWorld C :=
  if r.itemGuid = 0 || r.bid = 0 || r.etime = 0 then w
  else
    match r.auctioneer with
    | none => w
    | some npc =>
      match npc.entry with
      | none => w
      | some entry =>
        if maxAuctions < w.getAuctionsCount npc.house pl then w
        else
          let etime := mulU32 r.etime 60
          if etime ≠ minAuctionTime && etime ≠ 2 * minAuctionTime && etime ≠ 4 * minAuctionTime then w
          else if r.itemGuid ∈ w.aItems then w
          else
            match r.item with
            | none => w
            | some it =>
              if !it.canBeTraded then w
              else if it.conjured || it.duration ≠ 0 then w
              else
                let deposit := (cfg.auctionDeposit entry etime it).toNat
                if w.purse pl < deposit then w
                else w.startAuction cfg m pl npc.house entry r it etime deposit

/-- The branch of `HandleAuctionPlaceBid` for a bid below the buyout. -/
def placeBid (w : AuctionWorld C) (pl : C) (h : House) (a : AuctionEntry C) (price : ℕ) :
    AuctionWorld C :=
  let w :=
    match a.bidder with
    | some bidder =>
      if bidder = pl then w.modifyMoney pl (-toInt32 (subU32 price a.bid))
      else (w.sendAuctionOutbiddedMail cfg acc m a bidder).modifyMoney pl (-toInt32 price)
    | none => w.modifyMoney pl (-toInt32 price)
  (w.writeAuction h { a with bidder := some pl, bid := price }).record (.bid a pl price)

/-- The branch of `HandleAuctionPlaceBid` for a buyout. -/
def buyOut (w : AuctionWorld C) (pl : C) (h : House) (a : AuctionEntry C) : AuctionWorld C :=
  let w :=
    match a.bidder with
    | some bidder =>
      if bidder = pl then w.modifyMoney pl (-toInt32 (subU32 a.buyout a.bid))
      else (w.modifyMoney pl (-toInt32 a.buyout)).sendAuctionOutbiddedMail cfg acc m a bidder
    | none => w.modifyMoney pl (-toInt32 a.buyout)
  let w := w.record (.boughtOut a pl)
  let sold := { a with bidder := some pl, bid := a.buyout }
  let w := w.sendAuctionSalePendingMail cfg acc m sold
  let w := w.sendAuctionSuccessfulMail cfg acc m sold
  let w := (w.sendAuctionWonMail acc m sold).record (.sold sold)
  (w.removeAItem a.itemGuid).removeAuction h a.id

/-- `WorldSession::HandleAuctionPlaceBid`, at an auctioneer of the house. -/
def handleAuctionPlaceBid (w : AuctionWorld C) (pl : C) (auctioneer : Option House)
    (auctionId price : ℕ) : AuctionWorld C :=
  if auctionId = 0 || price = 0 then w
  else
    match auctioneer with
    | none => w
    | some h =>
      match w.getAuction h auctionId with
      | none => w
      | some a =>
        if a.owner = pl then w
        else if !m.findPlayer a.owner && acc.accountId a.owner = acc.accountId pl then w
        else if m.gameTime < a.depositTime + 60 &&
            (m.findPlayer a.owner && m.remoteAddress a.owner ≠ m.remoteAddress pl) then w
        else if price ≤ a.bid then w
        else if !a.isBuyout price && price < addU32 a.bid a.getAuctionOutBid then w
        else if w.purse pl < price then w
        else if !a.isBuyout price then w.placeBid cfg acc m pl h a price
        else w.buyOut cfg acc m pl h a

/-- What `HandleAuctionRemoveItem` does with an auction of the player whose item is there. -/
def cancelAuction (w : AuctionWorld C) (pl : C) (h : House) (a : AuctionEntry C) (item : ℕ) :
    AuctionWorld C :=
  let w := match a.bidder with
    | some bidder =>
      (w.sendAuctionCancelledToBidderMail acc m a bidder).modifyMoney pl
        (-toInt32 (a.getAuctionCut cfg))
    | none => w
  let w := w.sendMail (a.mail pl .canceled none 0 a.deposit 0 0 (some item) 0)
  ((w.record (.cancelled a)).removeAItem a.itemGuid).removeAuction h a.id

/-- `WorldSession::HandleAuctionRemoveItem`, at an auctioneer of the house. -/
def handleAuctionRemoveItem (w : AuctionWorld C) (pl : C) (auctioneer : Option House)
    (auctionId : ℕ) : AuctionWorld C :=
  match auctioneer with
  | none => w
  | some h =>
    match w.getAuction h auctionId with
    | none => w
    | some a =>
      if a.owner ≠ pl then w
      else
        match w.getAItem a.itemGuid with
        | none => w
        | some item =>
          if a.bidder.isSome && w.purse pl < a.getAuctionCut cfg then w
          else w.cancelAuction cfg acc m pl h a item

end Operations

/-! ## Steps -/

/-- What players and the server ask of the auction house. -/
inductive Op (C : Type)
  | sellItem (pl : C) (request : SellRequest)
  | placeBid (pl : C) (auctioneer : Option House) (auctionId price : ℕ)
  | removeItem (pl : C) (auctioneer : Option House) (auctionId : ℕ)
  | update (h : House)
  | removeAllAuctionsOf (owner : C)

variable [DecidableEq C]

/-- One operation, at a moment of the server. -/
def step (cfg : AuctionConfig) (acc : Accounts C) (w : AuctionWorld C) :
    Moment C × Op C → AuctionWorld C
  | (m, .sellItem pl r) => w.handleAuctionSellItem cfg m pl r
  | (m, .placeBid pl npc id price) => w.handleAuctionPlaceBid cfg acc m pl npc id price
  | (m, .removeItem pl npc id) => w.handleAuctionRemoveItem cfg acc m pl npc id
  | (m, .update h) => w.update cfg acc m h
  | (m, .removeAllAuctionsOf owner) => w.removeAllAuctionsOf cfg acc m owner

end AuctionWorld

end Sunstrider.Auction
