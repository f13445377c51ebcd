import Sunstrider.Mails.MailList

/-!
# Reading the list of mails back

An entry starts with its size, which is predicted before the entry is written. The prediction counts the
guid of a player for the sender, and so is right just for the mails of players
(`length_write_iff`). `Readable` says that the packet is not too long, and that a reader who follows the
sizes gets the entries of the listed mails and nothing else.

The packet is readable just if all mails that there is room for are mails of players
(`handleGetMailList_readable_iff`).
-/

namespace Sunstrider.Mails

open Sunstrider.Lib (toBytes ofBytes length_toBytes ofBytes_toBytes takeFrames takeFrames_flatten
  takeFrames_eq_some)

/-- The size that an entry tells. -/
def entrySize (bytes : List UInt8) : ℕ := ofBytes (bytes.take 2)

/-- A reader who follows the sizes gets the listed mails, in their order. -/
structure Readable (env : Env) (listed : List Mail) (packet : List UInt8) : Prop where
  size : packet.length ≤ maxPacketSize
  read : takeFrames entrySize (ofBytes (packet.take 1)) (packet.drop 1) =
    some (listed.map (Mail.write env), [])

/-- The mails that there is room for, when an entry takes the room that is predicted for it. -/
def roomFor (env : Env) : ℕ → ℕ → List Mail → List Mail
  | _, _, [] => []
  | mailsCount, wpos, m :: mails =>
    if 50 ≤ mailsCount then roomFor env mailsCount wpos mails
    else if !m.isDelivered env then roomFor env mailsCount wpos mails
    else if maxPacketSize < wpos + m.nextMailSize then roomFor env mailsCount wpos mails
    else m :: roomFor env (mailsCount + 1) (wpos + m.nextMailSize) mails

/-! ## Entries -/

section Entries

variable (env : Env) (m : Mail)

theorem length_writeItem (guid i : ℕ) : (Mail.writeItem env guid i).length = 102 := by
  have henchantments : ∀ item, ((List.finRange maxInspectedEnchantmentSlot).flatMap
      (Mail.writeEnchantment item)).length = 72 := by
    intro item
    have hone : ∀ j, (Mail.writeEnchantment item j).length = 12 := by
      intro j
      simp [Mail.writeEnchantment, length_toBytes]
    rfl
  simp [Mail.writeItem, length_toBytes, henchantments]

theorem itemCount_eq : m.itemCount = m.items.length :=
  Nat.mod_eq_of_lt (m.items_le.trans_lt (by decide))

/-- The prediction counts eight bytes for the sender. -/
theorem length_write : (m.write env).length + 8 = m.nextMailSize + m.writeSender.length := by
  have hitems : ((m.items.take m.itemCount).zipIdx.flatMap fun e =>
      Mail.writeItem env e.1 e.2).length = m.itemCount * 102 := by
    rw [itemCount_eq, List.take_length]
    simp only [List.length_flatMap, length_writeItem, List.map_const', List.length_zipIdx,
      List.sum_replicate_nat]
  simp only [Mail.write, Mail.writeFields, writeString, List.length_append, length_toBytes,
    List.length_singleton, hitems, Mail.nextMailSize]
  omega

theorem length_writeSender_le : m.writeSender.length ≤ 8 := by
  unfold Mail.writeSender
  split
  · rw [length_toBytes]
  · split
    · rw [length_toBytes]
      decide
    · exact Nat.zero_le 8

theorem length_writeSender_iff : m.writeSender.length = 8 ↔ m.messageType = mailNormal := by
  unfold Mail.writeSender
  split
  next h => exact iff_of_true (length_toBytes 8 m.sender) h
  next h =>
    refine iff_of_false (fun hlength => ?_) h
    split at hlength
    · rw [length_toBytes] at hlength
      cases hlength
    · cases hlength

theorem length_write_le : (m.write env).length ≤ m.nextMailSize := by
  have hlength := length_write env m
  have hsender := length_writeSender_le m
  omega

/-- **The prediction is right just for the mail of a player.** -/
theorem length_write_iff : (m.write env).length = m.nextMailSize ↔ m.messageType = mailNormal := by
  rw [← length_writeSender_iff]
  have hlength := length_write env m
  omega

/-- An entry that is not too long tells the predicted size. -/
theorem entrySize_write (h : m.nextMailSize ≤ maxPacketSize) (later : List UInt8) :
    entrySize (m.write env ++ later) = m.nextMailSize := by
  unfold entrySize Mail.write
  simp only [List.append_assoc]
  rw [List.take_left' (length_toBytes 2 _), ofBytes_toBytes]
  exact Nat.mod_eq_of_lt (h.trans_lt (by decide))

end Entries

/-! ## The loop -/

variable (env : Env)

/-- The packet has its count and the entries of the listed mails, all within the bound. -/
structure MailList.Sound (s : MailList) : Prop where
  data : s.data = toBytes 1 0 ++ (s.listed.map (Mail.write env)).flatten
  count : s.mailsCount = s.listed.length
  most : s.mailsCount ≤ 50
  size : s.data.length ≤ maxPacketSize
  each : ∀ m ∈ s.listed, m.nextMailSize ≤ maxPacketSize

variable {env}

theorem MailList.Sound.add {s : MailList} (h : s.Sound env) (m : Mail) : (s.add env m).Sound env := by
  unfold MailList.add
  split
  · exact h
  · next hmost =>
    split
    · exact h
    · split
      · exact h
      · next hroom =>
        refine ⟨?_, ?_, Nat.succ_le_of_lt (not_le.mp hmost), ?_, ?_⟩
        · dsimp only
          rw [h.data, List.map_append, List.flatten_append, List.map_singleton, List.flatten_singleton,
            List.append_assoc]
        · rw [List.length_append, List.length_singleton, h.count]
        · have hlength := length_write_le env m
          rw [List.length_append]
          omega
        · rw [List.forall_mem_append, List.forall_mem_singleton]
          exact ⟨h.each, by omega⟩

theorem listMails_sound (mails : List Mail) : (listMails env mails).Sound env := by
  unfold listMails
  generalize hs : (⟨toBytes 1 0, 0, []⟩ : MailList) = s
  have hsound : s.Sound env := by
    rw [← hs]
    exact ⟨rfl, rfl, Nat.zero_le 50, by decide, fun _ h => nomatch h⟩
  clear hs
  induction mails generalizing s with
  | nil => exact hsound
  | cons m mails ih => exact ih _ (hsound.add m)

/-- As long as all entries are as long as predicted, the mails that are listed are those that there is
room for; and a mail that is longer is listed just if there is room for one. -/
theorem listed_normal_iff (mails : List Mail) {s : MailList} :
    (∀ m ∈ (mails.foldl (MailList.add env) s).listed, m.messageType = mailNormal) ↔
      (∀ m ∈ s.listed, m.messageType = mailNormal) ∧
        ∀ m ∈ roomFor env s.mailsCount s.data.length mails, m.messageType = mailNormal := by
  induction mails generalizing s with
  | nil => exact (and_iff_left fun _ h => nomatch h).symm
  | cons m mails ih =>
    rw [List.foldl_cons, ih, roomFor, MailList.add]
    split
    · rfl
    · split
      · rfl
      · split
        · rfl
        · rw [List.forall_mem_append, List.forall_mem_singleton, List.forall_mem_cons, and_assoc]
          refine and_congr_right fun _ => and_congr_right fun hnormal => ?_
          rw [List.length_append, (length_write_iff env m).mpr hnormal]

/-! ## The packet -/

/-- **The list can be read back just if every mail that there is room for is from a player.** -/
theorem handleGetMailList_readable_iff (env : Env) (mails : List Mail) :
    Readable env (listMails env mails).listed (handleGetMailList env mails) ↔
      ∀ m ∈ roomFor env 0 1 mails, m.messageType = mailNormal := by
  have hsound : (listMails env mails).Sound env := listMails_sound mails
  have hiff : (∀ m ∈ (listMails env mails).listed, m.messageType = mailNormal) ↔
      ∀ m ∈ roomFor env 0 1 mails, m.messageType = mailNormal :=
    (listed_normal_iff mails).trans (and_iff_right fun _ h => nomatch h)
  have hdata : (listMails env mails).data.drop 1 =
      ((listMails env mails).listed.map (Mail.write env)).flatten := by
    rw [hsound.data]
    rfl
  have hcount : (listMails env mails).mailsCount % 256 ^ 1 =
      ((listMails env mails).listed.map (Mail.write env)).length := by
    rw [List.length_map, ← hsound.count, Nat.mod_eq_of_lt (hsound.most.trans_lt (by decide))]
  rw [← hiff]
  constructor
  · intro hreadable m hm
    have hread := hreadable.read
    unfold handleGetMailList at hread
    rw [List.take_left' (length_toBytes 1 _), List.drop_left' (length_toBytes 1 _)] at hread
    obtain ⟨-, -, hsizes⟩ := takeFrames_eq_some hread
    obtain ⟨later, hsize⟩ := hsizes _ (List.mem_map_of_mem hm)
    rw [entrySize_write env m (hsound.each m hm)] at hsize
    exact (length_write_iff env m).mp hsize
  · intro hnormal
    refine ⟨?_, ?_⟩
    · have hsize := hsound.size
      have hlength : (handleGetMailList env mails).length = (listMails env mails).data.length := by
        unfold handleGetMailList
        rw [List.length_append, length_toBytes, hdata, hsound.data, List.length_append, length_toBytes]
      rwa [hlength]
    · unfold handleGetMailList
      rw [List.take_left' (length_toBytes 1 _), List.drop_left' (length_toBytes 1 _), ofBytes_toBytes, hdata,
        hcount, ← List.append_nil (List.flatten _)]
      refine takeFrames_flatten [] fun entry hentry later => ?_
      obtain ⟨m, hm, rfl⟩ := List.mem_map.mp hentry
      rw [entrySize_write env m (hsound.each m hm), (length_write_iff env m).mpr (hnormal m hm)]

/-- A letter from a creature, without a subject. -/
def creatureLetter : Mail :=
  { messageId := 1, messageType := mailCreature, stationery := 41, mailTemplateId := 0, sender := 9, subject := []
    itemTextId := 0, items := [], items_le := Nat.zero_le _, expireTime := 0, deliverTime := 0, money := 0, cod := 0
    checked := 0, state := .unchanged }

/-- A mailbox without items, at the time 0. -/
def emptyBox : Env := ⟨fun _ => none, 0, fun _ => 0⟩

theorem creatureLetter_not_readable :
    ¬ Readable emptyBox (listMails emptyBox [creatureLetter]).listed (handleGetMailList emptyBox [creatureLetter]) :=
  fun h => absurd (congrArg Option.isSome h.read) (by decide +kernel)

end Sunstrider.Mails
