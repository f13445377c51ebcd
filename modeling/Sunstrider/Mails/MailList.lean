import Sunstrider.Lib.Word

/-!
# The list of mails

`WorldSession::HandleGetMailList`: the packet with the mails of a player, after the mailbox has been
checked and the mails are loaded. The mails are listed as long as there is room in the packet, and no
more than fifty of them. Records are those of the client that the server is built for by default.

The time that a mail has left is written as a float; its bits are a parameter. A string is its bytes.
-/

namespace Sunstrider.Mails

open Sunstrider.Lib (toBytes toU32)

/-- `MailMessageType`. -/
def mailNormal : ℕ := 0

def mailAuction : ℕ := 2

def mailCreature : ℕ := 3

def mailGameobject : ℕ := 4

inductive MailState
  | unchanged
  | changed
  | deleted
  deriving DecidableEq

def maxMailItems : ℕ := 12

def maxInspectedEnchantmentSlot : ℕ := 6

/-- The client can't work with larger packets. -/
def maxPacketSize : ℕ := 32767

structure Enchantment where
  id : ℕ
  duration : ℕ
  charges : ℕ

/-- What is read of an `Item` that came by mail. -/
structure Item where
  guid : ℕ
  entry : ℕ
  enchantment : Fin maxInspectedEnchantmentSlot → Enchantment
  itemRandomPropertyId : ℤ
  itemSuffixFactor : ℕ
  count : ℕ
  spellCharges : ℤ
  maxDurability : ℕ
  durability : ℕ

structure Mail where
  messageId : ℕ
  messageType : ℕ
  stationery : ℕ
  mailTemplateId : ℕ
  sender : ℕ
  subject : List UInt8
  itemTextId : ℕ
  /-- The guids of the items. -/
  items : List ℕ
  items_le : items.length ≤ maxMailItems
  expireTime : ℤ
  deliverTime : ℤ
  money : ℕ
  cod : ℕ
  checked : ℕ
  state : MailState

/-- What the handler reads beside the mails. -/
structure Env where
  /-- `Player::GetMItem`. -/
  getMItem : ℕ → Option Item
  /-- The game time. -/
  now : ℤ
  /-- The bits of a number of seconds as a float, in days. -/
  days : ℤ → UInt32

/-- `ByteBuffer::operator<<` of a string. -/
def writeString (s : List UInt8) : List UInt8 := s ++ [0]

/-! ## Entries -/

namespace Mail

variable (env : Env) (m : Mail)

def itemCount : ℕ := m.items.length % 2 ^ 8

def nextMailSize : ℕ :=
  2 + 4 + 1 + 8 + 4 * 8 + (m.subject.length + 1) + 1 +
    m.itemCount * (1 + 4 + 4 + 6 * 3 * 4 + 4 + 4 + 1 + 4 + 4 + 4)

/-- The sender. A player has a guid, and the senders of unknown types are not written. -/
def writeSender : List UInt8 :=
  if m.messageType = mailNormal then toBytes 8 m.sender
  else if m.messageType = mailCreature ∨ m.messageType = mailGameobject ∨ m.messageType = mailAuction then
    toBytes 4 m.sender
  else []

/-- The fields between the sender and the subject. -/
def writeFields : List UInt8 :=
  toBytes 4 m.cod ++ toBytes 4 m.itemTextId ++ toBytes 4 0 ++ toBytes 4 m.stationery ++
    toBytes 4 m.money ++ toBytes 4 m.checked ++ toBytes 4 (env.days (m.expireTime - env.now)).toNat ++
    toBytes 4 m.mailTemplateId

/-- One enchantment of an item, or of no item. -/
def writeEnchantment (item : Option Item) (j : Fin maxInspectedEnchantmentSlot) : List UInt8 :=
  toBytes 4 (item.elim 0 fun item => (item.enchantment j).id) ++
    toBytes 4 (item.elim 0 fun item => (item.enchantment j).duration) ++
    toBytes 4 (item.elim 0 fun item => (item.enchantment j).charges)

/-- One item of the mail. An item that is not there has zeros. -/
def writeItem (guid i : ℕ) : List UInt8 :=
  let item := env.getMItem guid
  toBytes 1 i ++ toBytes 4 (item.elim 0 Item.guid) ++ toBytes 4 (item.elim 0 Item.entry) ++
    (List.finRange maxInspectedEnchantmentSlot).flatMap (writeEnchantment item) ++
    toBytes 4 (toU32 (item.elim 0 Item.itemRandomPropertyId)) ++
    toBytes 4 (item.elim 0 Item.itemSuffixFactor) ++ toBytes 1 (item.elim 0 Item.count) ++
    toBytes 4 (toU32 (item.elim 0 Item.spellCharges)) ++ toBytes 4 (item.elim 0 Item.maxDurability) ++
    toBytes 4 (item.elim 0 Item.durability)

/-- The entry of a mail. -/
def write : List UInt8 :=
  toBytes 2 m.nextMailSize ++ toBytes 4 m.messageId ++ toBytes 1 m.messageType ++ m.writeSender ++
    m.writeFields env ++ writeString m.subject ++ toBytes 1 m.itemCount ++
    (m.items.take m.itemCount).zipIdx.flatMap fun e => writeItem env e.1 e.2

/-- The mail has arrived, and has not been deleted. -/
def isDelivered : Bool := m.state ≠ .deleted && m.deliverTime ≤ env.now

end Mail

/-! ## The packet -/

/-- The packet so far, with the mails that are in it. -/
structure MailList where
  data : List UInt8
  mailsCount : ℕ
  listed : List Mail

/-- A round of the loop. -/
def MailList.add (env : Env) (s : MailList) (m : Mail) : MailList :=
  -- Only first 50 mails are displayed
  if 50 ≤ s.mailsCount then s
  else if !m.isDelivered env then s
  else if maxPacketSize < s.data.length + m.nextMailSize then s
  else
    { data := s.data ++ m.write env
      mailsCount := s.mailsCount + 1
      listed := s.listed ++ [m] }

/-- The loop over the mails. The packet starts with a place for their count. -/
def listMails (env : Env) (mails : List Mail) : MailList :=
  mails.foldl (MailList.add env) ⟨toBytes 1 0, 0, []⟩

/-- `WorldSession::HandleGetMailList`: the packet that is sent. -/
def handleGetMailList (env : Env) (mails : List Mail) : List UInt8 :=
  toBytes 1 (listMails env mails).mailsCount ++ (listMails env mails).data.drop 1

end Sunstrider.Mails
