import Mathlib.Tactic.Ring
import Sunstrider.Lib.Run
import Sunstrider.Tickets.TicketMgr

/-!
# GM tickets are counted and stored faithfully

The number of open tickets is right as long as a ticket is closed by somebody just when it is open, no open
ticket is removed or replaced, and the number fits a word. A ticket is loaded as it was saved where its guids
are those of players that a signed word holds, its times fit their columns, and nobody has resolved it.
-/

namespace Sunstrider.Tickets

open Lib (AllAlong always_iff_allAlong countValues countValues_erase countValues_insert
  countValues_insert_new foldl_loop lookup_erase_ite lookup_insert_ite)

/-! ## Guids in columns -/

variable {guid : UInt64}

theorem getCounter_of_lt (h : guid.toNat < 2 ^ 32) : (getCounter guid).toNat = guid.toNat := by
  have hhigh : guid >>> 48 = 0 := by
    refine UInt64.toNat_inj.mp ?_
    rw [UInt64.toNat_shiftRight, Nat.shiftRight_eq_div_pow]
    exact Nat.div_eq_of_lt (h.trans (by decide))
  have hentry : hasEntry guid = false := by
    rw [hasEntry, hhigh]
    rfl
  rw [getCounter, hentry, if_neg Bool.false_ne_true, UInt64.toNat_toUInt32, UInt64.toNat_and]
  have hmask := Nat.and_two_pow_sub_one_eq_mod guid.toNat 32
  show (guid.toNat &&& (2 ^ 32 - 1)) % 2 ^ 32 = _
  omega

/-- A word that has been taken for a negative number seems to have an entry. -/
theorem getCounter_of_signed (h : 2 ^ 64 - 2 ^ 31 ≤ guid.toNat) :
    (getCounter guid).toNat < 2 ^ 24 := by
  have hhigh : guid >>> 48 = 0xFFFF := by
    refine UInt64.toNat_inj.mp ?_
    have hbound := guid.toNat_lt
    rw [UInt64.toNat_shiftRight, Nat.shiftRight_eq_div_pow]
    show guid.toNat / 2 ^ 48 = 65535
    omega
  have hentry : hasEntry guid = true := by
    rw [hasEntry, hhigh]
    rfl
  rw [getCounter, hentry, if_pos rfl, UInt64.toNat_toUInt32, UInt64.toNat_and]
  have hmask := Nat.and_two_pow_sub_one_eq_mod guid.toNat 24
  show (guid.toNat &&& (2 ^ 24 - 1)) % 2 ^ 32 < _
  omega

theorem toNat_signed (c : UInt32) : c.toInt32.toInt64.toUInt64.toNat =
    if c.toNat < 2 ^ 31 then c.toNat else c.toNat + (2 ^ 64 - 2 ^ 32) := by
  have hwide : c.toInt32.toInt64.toInt = c.toInt32.toInt := Int32.toInt_toInt64 _
  have hnarrow : c.toInt32.toInt = _ := BitVec.toInt_eq_toNat_cond c.toBitVec
  have hword : c.toInt32.toInt64.toInt = _ :=
    BitVec.toInt_eq_toNat_cond c.toInt32.toInt64.toUInt64.toBitVec
  have hc : c.toBitVec.toNat = c.toNat := rfl
  have hw : c.toInt32.toInt64.toUInt64.toBitVec.toNat = c.toInt32.toInt64.toUInt64.toNat := rfl
  rw [hw, hwide, hnarrow, hc] at hword
  split at hword <;> split at hword <;> split <;> omega

theorem playerGuid_getCounter_iff : playerGuid (getCounter guid) = guid ↔ guid.toNat < 2 ^ 32 := by
  rw [playerGuid, ← UInt64.toNat_inj, UInt32.toNat_toUInt64]
  have hbound := (getCounter guid).toNat_lt
  exact ⟨fun h => h ▸ hbound, getCounter_of_lt⟩

theorem signed_getCounter_iff :
    (getCounter guid).toInt32.toInt64.toUInt64 = guid ↔ guid.toNat < 2 ^ 31 := by
  rw [← UInt64.toNat_inj, toNat_signed]
  constructor
  · intro h
    split at h
    next hlt => omega
    next hge =>
      have hsmall : (getCounter guid).toNat < 2 ^ 24 := getCounter_of_signed (by omega)
      omega
  · intro h
    have hsame : (getCounter guid).toNat = guid.toNat := getCounter_of_lt (by omega)
    rw [hsame, if_pos h]

theorem narrow_iff {time : UInt64} : time.toUInt32.toUInt64 = time ↔ time.toNat < 2 ^ 32 := by
  rw [← UInt64.toNat_inj, UInt32.toNat_toUInt64, UInt64.toNat_toUInt32]
  omega

theorem getBool_setBool (b : Bool) : getBool (setBool b) = b := by cases b <;> rfl

/-! ## Saving and loading -/

namespace GmTicket

variable (t : GmTicket)

/-- A ticket that is loaded as it was saved. -/
structure Storable : Prop where
  playerGuid : t.playerGuid.toNat < 2 ^ 32
  assignedTo : t.assignedTo.toNat < 2 ^ 32
  closedBy : t.closedBy.toNat < 2 ^ 31
  resolvedBy : t.resolvedBy = 0
  createTime : t.createTime.toNat < 2 ^ 32
  lastModifiedTime : t.lastModifiedTime.toNat < 2 ^ 32
  closedTime : t.closedTime.toNat < 2 ^ 32

theorem loadFromDB_saveToDB_iff : t.saveToDB.loadFromDB t.id = t ↔ t.Storable := by
  constructor
  · intro h
    have hfield {α : Type} (f : GmTicket → α) : f (t.saveToDB.loadFromDB t.id) = f t := congrArg f h
    exact
      { playerGuid := playerGuid_getCounter_iff.mp (hfield GmTicket.playerGuid)
        assignedTo := playerGuid_getCounter_iff.mp (hfield GmTicket.assignedTo)
        closedBy := signed_getCounter_iff.mp (hfield GmTicket.closedBy)
        resolvedBy := (hfield GmTicket.resolvedBy).symm
        createTime := narrow_iff.mp (hfield GmTicket.createTime)
        lastModifiedTime := narrow_iff.mp (hfield GmTicket.lastModifiedTime)
        closedTime := narrow_iff.mp (hfield GmTicket.closedTime) }
  · intro h
    cases t with
    | mk =>
      simp only [saveToDB, TicketRow.loadFromDB, getBool_setBool, GmTicket.mk.injEq, true_and, and_true]
      exact ⟨playerGuid_getCounter_iff.mpr h.playerGuid, narrow_iff.mpr h.createTime,
        narrow_iff.mpr h.lastModifiedTime, signed_getCounter_iff.mpr h.closedBy,
        narrow_iff.mpr h.closedTime, h.resolvedBy.symm, playerGuid_getCounter_iff.mpr h.assignedTo⟩

end GmTicket

/-! ## The number of open tickets -/

namespace TicketMgr

variable {m : TicketMgr}

/-- The number of the tickets of the list that are not closed. -/
def openTickets (m : TicketMgr) : ℕ := countValues (fun t => !t.isClosed) m.ticketList

/-- The counter is the number of open tickets. -/
def Counted (m : TicketMgr) : Prop := m.openTicketCount.toNat = m.openTickets

/-- The counter is right, and each ticket stands under its own id. -/
structure Sound (m : TicketMgr) : Prop where
  counted : m.Counted
  keyed : ∀ id t, m.ticketList.lookup id = some t → t.id = id

/-- A step that keeps the counter right. -/
def Admits (m : TicketMgr) : Op → Prop
  | .addTicket t =>
    (∀ t', m.ticketList.lookup t.id = some t' → t'.isClosed = true) ∧
      (t.isClosed = true ∨ m.openTicketCount.toNat + 1 < 2 ^ 32)
  | .closeTicket ticketId source _ | .resolveAndCloseTicket ticketId source _ =>
    ∀ t, m.ticketList.lookup ticketId = some t → (source ≠ 0 ↔ t.isClosed = false)
  | .removeTicket ticketId => ∀ t, m.ticketList.lookup ticketId = some t → t.isClosed = true
  | .resetTickets => True
  | .loadTickets => countValues (fun row => row.type == ticketTypeOpen) m.gmTicket < 2 ^ 32

theorem openTickets_write (m : TicketMgr) (t : GmTicket) :
    (m.write t).openTickets + (if (m.ticketList.lookup t.id).any fun t' => !t'.isClosed then 1 else 0) =
      m.openTickets + if t.isClosed then 0 else 1 := by
  have hnew : (if !t.isClosed then 1 else 0) = if t.isClosed then 0 else 1 := by
    cases t.isClosed <;> rfl
  cases h : m.ticketList.lookup t.id with
  | none =>
    have hcount := countValues_insert_new (fun t => !t.isClosed) h t
    rw [hnew] at hcount
    exact hcount
  | some t' =>
    have hcount := countValues_insert (fun t => !t.isClosed) h t
    rw [hnew] at hcount
    exact hcount

theorem keyed_write (h : ∀ id t, m.ticketList.lookup id = some t → t.id = id) (t : GmTicket) :
    ∀ id t', (m.write t).ticketList.lookup id = some t' → t'.id = id := by
  intro id t' ht'
  rw [write, lookup_insert_ite] at ht'
  split at ht'
  · next heq =>
    cases ht'
    exact heq.symm
  · exact h id t' ht'

theorem toNat_succ (c : UInt32) : (c + 1).toNat = (c.toNat + 1) % 2 ^ 32 := UInt32.toNat_add c 1

theorem toNat_pred (c : UInt32) : (c - 1).toNat = (2 ^ 32 - 1 + c.toNat) % 2 ^ 32 := UInt32.toNat_sub c 1

theorem addTicket_counted_iff (h : m.Sound) (t : GmTicket) :
    (m.addTicket t).Counted ↔ m.Admits (.addTicket t) := by
  have hcounted : m.openTicketCount.toNat = m.openTickets := h.counted
  have hwrite := m.openTickets_write t
  show (if t.isClosed then m.openTicketCount else m.openTicketCount + 1).toNat = (m.write t).openTickets ↔ _
  have hold : (∀ t', m.ticketList.lookup t.id = some t' → t'.isClosed = true) ↔
      ((m.ticketList.lookup t.id).any fun t' => !t'.isClosed) = false := by
    cases m.ticketList.lookup t.id with
    | none => simp
    | some t' => simp
  rw [Admits, hold]
  generalize ((m.ticketList.lookup t.id).any fun t' => !t'.isClosed) = old at hwrite ⊢
  cases hclosed : t.isClosed with
  | true =>
    rw [hclosed, if_pos rfl] at hwrite
    cases old with
    | true => simp at hwrite ⊢; omega
    | false => simp at hwrite ⊢; omega
  | false =>
    rw [hclosed, if_neg Bool.false_ne_true] at hwrite
    cases old with
    | true => simp at hwrite ⊢; omega
    | false => simp at hwrite ⊢; omega

theorem close_counted_iff (h : m.Sound) {t : GmTicket} (t' : GmTicket) (source : UInt64)
    (ht : m.ticketList.lookup t'.id = some t) (hclosed : t'.isClosed = true) :
    (m.close t' source).Counted ↔ (source ≠ 0 ↔ t.isClosed = false) := by
  have hcounted : m.openTicketCount.toNat = m.openTickets := h.counted
  have hbound := m.openTicketCount.toNat_lt
  have hwrite := m.openTickets_write t'
  rw [ht, hclosed] at hwrite
  show (if source ≠ 0 then m.openTicketCount - 1 else m.openTicketCount).toNat =
    (m.write t').openTickets ↔ _
  by_cases hsource : source = 0
  · rw [if_neg (by simpa using hsource)]
    cases hopen : t.isClosed with
    | true => simp [hopen, hsource] at hwrite ⊢; omega
    | false => simp [hopen, hsource] at hwrite ⊢; omega
  · rw [if_pos hsource, toNat_pred]
    cases hopen : t.isClosed with
    | true => simp [hopen, hsource] at hwrite ⊢; omega
    | false => simp [hopen, hsource] at hwrite ⊢; omega

theorem removeTicket_counted_iff (h : m.Sound) (ticketId : UInt32) :
    (m.removeTicket ticketId).Counted ↔ m.Admits (.removeTicket ticketId) := by
  have hcounted : m.openTicketCount.toNat = m.openTickets := h.counted
  rw [removeTicket, Admits]
  cases ht : m.ticketList.lookup ticketId with
  | none => simpa using h.counted
  | some t =>
    have herase : countValues (fun t => !t.isClosed) (m.ticketList.erase ticketId) +
        (if !t.isClosed then 1 else 0) = m.openTickets := countValues_erase _ ht
    show m.openTicketCount.toNat = countValues _ (m.ticketList.erase ticketId) ↔ _
    cases hclosed : t.isClosed with
    | true => simp [hclosed] at herase ⊢; omega
    | false => simp [hclosed] at herase ⊢; omega

theorem keyed_removeTicket (h : ∀ id t, m.ticketList.lookup id = some t → t.id = id) (ticketId : UInt32) :
    ∀ id t, (m.removeTicket ticketId).ticketList.lookup id = some t → t.id = id := by
  intro id t ht
  rw [removeTicket] at ht
  cases hlookup : m.ticketList.lookup ticketId with
  | none =>
    rw [hlookup] at ht
    exact h id t ht
  | some t' =>
    simp only [hlookup, lookup_erase_ite] at ht
    split at ht
    · cases ht
    · exact h id t ht

theorem lookup_of_lookup_removeTicket {ticketId id : UInt32} {t : GmTicket}
    (ht : (m.removeTicket ticketId).ticketList.lookup id = some t) : m.ticketList.lookup id = some t := by
  rw [removeTicket] at ht
  cases hlookup : m.ticketList.lookup ticketId with
  | none => rwa [hlookup] at ht
  | some t' =>
    simp only [hlookup, lookup_erase_ite] at ht
    split at ht
    · cases ht
    · exact ht

theorem Sound.resetTickets (h : m.Sound) : m.resetTickets.Sound := by
  let Inv (rest : List (Σ _ : UInt32, GmTicket)) (s : TicketMgr) : Prop :=
    s.Sound ∧ (∀ e ∈ rest, m.ticketList.lookup e.1 = some e.2) ∧
      ∀ id t, s.ticketList.lookup id = some t → m.ticketList.lookup id = some t
  have hloop : Inv [] (m.ticketList.entries.foldl
      (fun s e => if e.2.isClosed then s.removeTicket e.2.id else s) m) := by
    refine foldl_loop Inv _ ⟨h, fun e he => AList.mem_lookup_iff.mpr he, fun _ _ ht => ht⟩ ?_
    rintro s e rest ⟨hs, hrest, hsub⟩
    obtain ⟨he, hrest⟩ := List.forall_mem_cons.mp hrest
    by_cases hclosed : e.2.isClosed = true
    · have hadmits : s.Admits (.removeTicket e.2.id) := by
        intro t ht
        -- the ticket that is removed is the one of the entry
        rw [h.keyed e.1 e.2 he] at ht
        obtain rfl := Option.some.inj ((hsub _ _ ht).symm.trans he)
        exact hclosed
      rw [if_pos hclosed]
      exact ⟨⟨(removeTicket_counted_iff hs _).mpr hadmits, keyed_removeTicket hs.keyed _⟩, hrest,
        fun id t ht => hsub id t (lookup_of_lookup_removeTicket ht)⟩
    · rw [if_neg hclosed]
      exact ⟨hs, hrest, hsub⟩
  exact ⟨hloop.1.counted, hloop.1.keyed⟩

theorem loadTicket_openTickets {id : UInt32} (h : m.ticketList.lookup id = none) (row : TicketRow) :
    (m.loadTicket id row).openTickets = m.openTickets + (if row.type == ticketTypeOpen then 1 else 0) := by
  have hopen : (!(row.loadFromDB id).isClosed) = (row.type == ticketTypeOpen) := Bool.not_not _
  have hcount := countValues_insert_new (fun t => !t.isClosed) h (row.loadFromDB id)
  rw [hopen] at hcount
  exact hcount

theorem loadTicket_openTicketCount (m : TicketMgr) (id : UInt32) (row : TicketRow) :
    (m.loadTicket id row).openTicketCount =
      if row.type == ticketTypeOpen then m.openTicketCount + 1 else m.openTicketCount := by
  have hopen : (row.loadFromDB id).isClosed = !(row.type == ticketTypeOpen) := rfl
  rw [loadTicket]
  rw [hopen]
  cases row.type == ticketTypeOpen <;> rfl

/-- After `LoadTickets` each row has its ticket, and they have been counted in a word. -/
theorem loadTickets_spec (m : TicketMgr) :
    m.loadTickets.openTickets = countValues (fun row => row.type == ticketTypeOpen) m.gmTicket ∧
      m.loadTickets.openTicketCount.toNat = m.loadTickets.openTickets % 2 ^ 32 ∧
      ∀ id t, m.loadTickets.ticketList.lookup id = some t → t.id = id := by
  let isOpen (e : Σ _ : UInt32, TicketRow) : Bool := e.2.type == ticketTypeOpen
  let Inv (rest : List (Σ _ : UInt32, TicketRow)) (s : TicketMgr) : Prop :=
    s.openTickets + rest.countP isOpen = m.gmTicket.entries.countP isOpen ∧
      s.openTicketCount.toNat = s.openTickets % 2 ^ 32 ∧
      (∀ id t, s.ticketList.lookup id = some t → t.id = id) ∧
      rest.NodupKeys ∧ ∀ e ∈ rest, s.ticketList.lookup e.1 = none
  have hinit : Inv m.gmTicket.entries { m with ticketList := ∅, lastTicketId := 0, openTicketCount := 0 } :=
    ⟨Nat.zero_add _, rfl, fun _ _ ht => by simp at ht, m.gmTicket.nodupKeys, fun _ _ => rfl⟩
  have hloop : Inv [] m.loadTickets := by
    refine foldl_loop Inv _ hinit ?_
    rintro s ⟨id, row⟩ rest ⟨htotal, hcount, hkeyed, hnodup, hfresh⟩
    obtain ⟨hid, hfresh⟩ := List.forall_mem_cons.mp hfresh
    obtain ⟨hnotin, hnodup⟩ := List.nodupKeys_cons.mp hnodup
    have hopen := loadTicket_openTickets hid row
    refine ⟨?_, ?_, ?_, hnodup, ?_⟩
    · rw [List.countP_cons] at htotal
      rw [hopen]
      simp only [isOpen] at htotal ⊢
      omega
    · rw [hopen, loadTicket_openTicketCount]
      cases row.type == ticketTypeOpen with
      | true =>
        rw [if_pos rfl, if_pos rfl, toNat_succ, hcount, Nat.mod_add_mod]
      | false => simpa using hcount
    · intro id' t ht
      rw [loadTicket, lookup_insert_ite] at ht
      split at ht
      · next heq =>
        cases ht
        exact heq.symm
      · exact hkeyed id' t ht
    · intro e he
      have hmem : e.1 ∈ rest.keys := List.mem_keys_of_mem he
      have hne : e.1 ≠ id := ne_of_mem_of_not_mem hmem hnotin
      exact ((lookup_insert_ite _ _ _ _).trans (if_neg hne)).trans (hfresh e he)
  obtain ⟨htotal, hcount, hkeyed, -, -⟩ := hloop
  exact ⟨htotal, hcount, hkeyed⟩

theorem loadTickets_counted_iff (m : TicketMgr) :
    m.loadTickets.Counted ↔ m.Admits .loadTickets := by
  obtain ⟨hall, hword, -⟩ := m.loadTickets_spec
  rw [Counted, hword, Admits, ← hall]
  omega

/-! ## Runs -/

/-- **One step** from a sound state leaves the counter right just if it is admitted. -/
theorem Sound.step_counted_iff (h : m.Sound) (op : Op) : (m.step op).Counted ↔ m.Admits op := by
  cases op with
  | addTicket t => exact addTicket_counted_iff h t
  | closeTicket ticketId source now =>
    rw [step, closeTicket, Admits]
    cases ht : m.ticketList.lookup ticketId with
    | none => simpa using h.counted
    | some t =>
      obtain rfl := h.keyed ticketId t ht
      simpa using close_counted_iff h (t.setClosedBy source now) source ht rfl
  | resolveAndCloseTicket ticketId source now =>
    rw [step, resolveAndCloseTicket, Admits]
    cases ht : m.ticketList.lookup ticketId with
    | none => simpa using h.counted
    | some t =>
      obtain rfl := h.keyed ticketId t ht
      simpa using close_counted_iff h ((t.setClosedBy source now).setResolvedBy source) source ht rfl
  | removeTicket ticketId => exact removeTicket_counted_iff h ticketId
  | resetTickets => exact ⟨fun _ => trivial, fun _ => h.resetTickets.counted⟩
  | loadTickets => exact m.loadTickets_counted_iff

/-- Every step leaves each ticket under its own id. -/
theorem Sound.step_keyed (h : m.Sound) (op : Op) :
    ∀ id t, (m.step op).ticketList.lookup id = some t → t.id = id := by
  cases op with
  | addTicket t => exact keyed_write h.keyed t
  | closeTicket ticketId source now =>
    rw [step, closeTicket]
    cases m.ticketList.lookup ticketId with
    | none => exact h.keyed
    | some t => exact keyed_write h.keyed _
  | resolveAndCloseTicket ticketId source now =>
    rw [step, resolveAndCloseTicket]
    cases m.ticketList.lookup ticketId with
    | none => exact h.keyed
    | some t => exact keyed_write h.keyed _
  | removeTicket ticketId => exact keyed_removeTicket h.keyed ticketId
  | resetTickets => exact h.resetTickets.keyed
  | loadTickets => exact m.loadTickets_spec.2.2

theorem sound_start (gmTicket : AList fun _ : UInt32 => TicketRow) : (start gmTicket).Sound :=
  ⟨rfl, fun _ _ h => nomatch h⟩

/-- **When tickets are counted and stored faithfully**: in all states of a run the counter is the number of
open tickets just if each step is admitted, and a ticket is loaded as it was saved just if it is storable. -/
theorem faithful_iff (gmTicket : AList fun _ : UInt32 => TicketRow) (ops : List Op) (t : GmTicket) :
    ((∀ l, l <+: ops → (l.foldl step (start gmTicket)).Counted) ↔
      AllAlong step Admits (start gmTicket) ops) ∧
      (t.saveToDB.loadFromDB t.id = t ↔ t.Storable) := by
  refine ⟨?_, GmTicket.loadFromDB_saveToDB_iff t⟩
  exact always_iff_allAlong (fun m op h hop => ⟨(h.step_counted_iff op).mpr hop, h.step_keyed op⟩)
    (fun _ h => h.counted) (fun m op h hop => (h.step_counted_iff op).mp hop) (sound_start gmTicket) ops

/-- A ticket that is open, of the player 1. -/
def question : GmTicket :=
  ⟨1, ticketTypeOpen, 1, "Player", "Help", 100, 0, 0, 0, 0, 100, 0, 0, 0, 0, "", "", false, 0, false, false⟩

/-- The console closes a ticket, which goes on counting as open; a GM resolves one, and it counts as 2 ^ 32 - 1
tickets when it is closed again; and a ticket is loaded without the GM that has resolved it. -/
theorem question_unfaithful :
    ¬ ([.addTicket question, .closeTicket 1 0 200].foldl step (start ∅)).Counted ∧
      ([.addTicket question, .closeTicket 1 7 200, .closeTicket 1 7 300].foldl step
        (start ∅)).openTicketCount = 0xFFFFFFFF ∧
      ¬ ([.addTicket question, .removeTicket 1].foldl step (start ∅)).Counted ∧
      ((question.setClosedBy 7 200).setResolvedBy 7).saveToDB.loadFromDB 1 ≠
        (question.setClosedBy 7 200).setResolvedBy 7 := by
  refine ⟨?_, ?_, ?_, ?_⟩
  · show ¬ (_ = _)
    decide
  · decide
  · show ¬ (_ = _)
    decide
  · decide

end TicketMgr

end Sunstrider.Tickets
