import Sunstrider.Battlegrounds.ArenaTeam

/-!
# Who is in which arena team

A character is in a team just if the character cache lists the team for it, under the slot of its type
(`Consistent`). As the cache lists one team under a slot, a character is in one team of a type at most.
-/

namespace Sunstrider.Battlegrounds

open Cache (CharacterCache CharacterRow maxArenaSlot)
open Lib

theorem getSlotByType_injective {type type' : UInt8} (h : (getSlotByType type).toNat < maxArenaSlot)
    (heq : getSlotByType type = getSlotByType type') : type = type' := by
  revert h heq
  simp only [getSlotByType]
  split <;> split <;> simp_all [maxArenaSlot]

namespace ArenaWorld

variable {s : ArenaWorld}

/-! ## What the cache lists -/

/-- The team that the character cache lists for a character under a slot. -/
def listed (s : ArenaWorld) (guid : UInt32) (slot : ℕ) : Option UInt32 :=
  (s.cache.getCharacterCacheByGuid guid).bind fun e => e.arenaTeamId[slot]?

variable {slot : ℕ}

theorem isSome_listed {guid : UInt32} (hslot : slot < maxArenaSlot) :
    (s.listed guid slot).isSome = (s.cache.getCharacterCacheByGuid guid).isSome := by
  rw [listed]
  cases s.cache.getCharacterCacheByGuid guid with
  | none => rfl
  | some e =>
    rw [Option.bind_some, Vector.getElem?_eq_getElem hslot]
    rfl

/-- The cache lists another team for a character, if it has the character. -/
def Relists (s : ArenaWorld) (cache : CharacterCache) (guid : UInt32) (slot : ℕ) (id : UInt32) : Prop :=
  ∀ g i, listed { s with cache } g i =
    if g = guid ∧ i = slot then (s.listed g i).map fun _ => id else s.listed g i

variable {cache : CharacterCache}

theorem Relists.isSome {guid id : UInt32} (h : s.Relists cache guid slot id) (g : UInt32) (i : ℕ) :
    (listed { s with cache } g i).isSome = (s.listed g i).isSome := by
  rw [h g i]
  split
  · rw [Option.isSome_map]
  · rfl

theorem Relists.of_cache {s' : ArenaWorld} {guid id : UInt32} (h : s.Relists cache guid slot id)
    (hcache : s'.cache = s.cache) : s'.Relists cache guid slot id := by
  intro g i
  rw [show listed { s' with cache } g i = listed { s with cache } g i from rfl, h g i]
  simp [listed, hcache]

theorem updateCharacterArenaTeamId_relists (guid : UInt32) {slot : UInt8} (id : UInt32)
    (hslot : slot.toNat < maxArenaSlot) :
    ∃ cache, s.updateCharacterArenaTeamId guid slot id = .ok { s with cache } ∧
      s.Relists cache guid slot.toNat id := by
  rw [updateCharacterArenaTeamId, CharacterCache.updateCharacterArenaTeamId]
  split
  next hnone =>
    refine ⟨s.cache, rfl, fun g i => ?_⟩
    split
    · next heq =>
      have hlisted : s.listed g i = none := by
        rw [listed, CharacterCache.getCharacterCacheByGuid, heq.1, hnone]
        rfl
      show s.listed g i = _
      rw [hlisted]
      rfl
    · rfl
  next node hnode =>
    rw [dif_pos hslot]
    refine ⟨_, rfl, fun g i => ?_⟩
    have hold : s.listed guid i = node.entry.arenaTeamId[i]? := by
      rw [listed, CharacterCache.getCharacterCacheByGuid, hnode]
      rfl
    by_cases hg : g = guid
    · subst hg
      rw [hold, listed, CharacterCache.getCharacterCacheByGuid]
      simp only [AList.lookup_insert, Option.map_some, Option.bind_some, true_and, Vector.getElem?_set]
      by_cases hi : i = slot.toNat
      · subst hi
        simp [hslot]
      · rw [if_neg (Ne.symm hi), if_neg hi]
    · rw [if_neg fun h => hg h.1, listed, CharacterCache.getCharacterCacheByGuid]
      simp only [AList.lookup_insert_ne hg]
      rfl

/-! ## The teams -/

/-- The cache and the fields of the players say who is in which team. -/
structure Consistent (s : ArenaWorld) : Prop where
  freed : s.freed = []
  started : 0 < s.nextArenaTeamId
  team : ∀ id t, s.arenaTeamStore.lookup id = some t →
    t.teamId = id ∧ id ≠ 0 ∧ id < s.nextArenaTeamId ∧ t.getSlot.toNat < maxArenaSlot ∧ t.members.Nodup
  member : ∀ id t, s.arenaTeamStore.lookup id = some t →
    ∀ g, g ∈ t.members ↔ s.listed g t.getSlot.toNat = some id
  listed : ∀ g i id, s.listed g i = some id → id ≠ 0 →
    ∃ t, s.arenaTeamStore.lookup id = some t ∧ t.getSlot.toNat = i
  known : ∀ g p, s.players g = some p → (s.cache.getCharacterCacheByGuid g).isSome = true
  field : ∀ g p, s.players g = some p → ∀ i < maxArenaSlot, p.values (i * 6) ≠ 0 →
    ∃ t, s.arenaTeamStore.lookup (p.values (i * 6)) = some t ∧ t.getSlot.toNat = i ∧ g ∈ t.members

/-- The fields of a player say nothing wrong. -/
def Truthful (s : ArenaWorld) (g : UInt32) (p : Player) : Prop :=
  ∀ i < maxArenaSlot, p.values (i * 6) ≠ 0 →
    ∃ t, s.arenaTeamStore.lookup (p.values (i * 6)) = some t ∧ t.getSlot.toNat = i ∧ g ∈ t.members

theorem Consistent.setPlayer (h : s.Consistent) {g : UInt32} {p : Player}
    (hknown : (s.cache.getCharacterCacheByGuid g).isSome = true) (hp : s.Truthful g p) :
    (s.setPlayer g p).Consistent := by
  have hcases : ∀ g' p', (s.setPlayer g p).players g' = some p' →
      (g' = g ∧ p' = p) ∨ s.players g' = some p' := by
    intro g' p' hp'
    by_cases heq : g' = g
    · rw [heq] at hp'
      have hself : (s.setPlayer g p).players g = some p := Function.update_self _ _ _
      exact .inl ⟨heq, (Option.some.inj (hself.symm.trans hp')).symm⟩
    · exact .inr ((Function.update_of_ne heq _ _).symm.trans hp')
  refine ⟨h.freed, h.started, h.team, h.member, h.listed, fun g' p' hp' => ?_, fun g' p' hp' => ?_⟩
  · obtain ⟨rfl, rfl⟩ | hold := hcases g' p' hp'
    · exact hknown
    · exact h.known g' p' hold
  · obtain ⟨rfl, rfl⟩ | hold := hcases g' p' hp'
    · exact hp
    · exact h.field g' p' hold

theorem Consistent.logout (h : s.Consistent) (g : UInt32) :
    Consistent { s with players := Function.update s.players g none } := by
  have hold : ∀ g' p', Function.update s.players g none g' = some p' → s.players g' = some p' := by
    intro g' p' hp'
    by_cases heq : g' = g
    · rw [heq] at hp'
      exact nomatch (Function.update_self g none s.players).symm.trans hp'
    · exact (Function.update_of_ne heq _ _).symm.trans hp'
  exact ⟨h.freed, h.started, h.team, h.member, h.listed, fun g' p' hp' => h.known g' p' (hold g' p' hp'),
    fun g' p' hp' => h.field g' p' (hold g' p' hp')⟩

theorem Consistent.modifyPlayer (h : s.Consistent) (g : UInt32) {f : Player → Player}
    (hf : ∀ p, ∀ i < maxArenaSlot, (f p).values (i * 6) = p.values (i * 6)) :
    (s.modifyPlayer g f).Consistent := by
  rw [ArenaWorld.modifyPlayer]
  cases hp : s.players g with
  | none => exact h.logout g
  | some p =>
    refine h.setPlayer (h.known g p hp) fun i hi => ?_
    rw [hf p i hi]
    exact h.field g p hp i hi

theorem Relists.known {guid id : UInt32} (h : s.Relists cache guid slot id) (g : UInt32) :
    (cache.getCharacterCacheByGuid g).isSome = (s.cache.getCharacterCacheByGuid g).isSome := by
  have hzero : 0 < maxArenaSlot := by decide
  rw [← isSome_listed (s := s) hzero, ← h.isSome, isSome_listed hzero]

variable {t : ArenaTeam}

theorem lookup_write {t' : ArenaTeam} {id : UInt32} :
    (s.write t).arenaTeamStore.lookup id = some t' ↔
      (id = t.teamId ∧ t' = t) ∨ (id ≠ t.teamId ∧ s.arenaTeamStore.lookup id = some t') := by
  by_cases hid : id = t.teamId
  · rw [hid, write, AList.lookup_insert]
    simp [eq_comm]
  · rw [write, AList.lookup_insert_ne hid]
    simp [hid]

/-- **A character that the cache lists in no team of the type becomes a member.** -/
theorem Consistent.join (h : s.Consistent) {guid : UInt32}
    (ht : s.arenaTeamStore.lookup t.teamId = some t)
    (hfree : s.listed guid t.getSlot.toNat = some 0)
    (hcache : s.Relists cache guid t.getSlot.toNat t.teamId) :
    (write { s with cache } { t with members := t.members ++ [guid] }).Consistent := by
  obtain ⟨-, hpos, hlt, hslot, hnodup⟩ := h.team _ _ ht
  have hnot : guid ∉ t.members := by
    intro hmem
    rw [(h.member _ _ ht guid).mp hmem] at hfree
    exact hpos (Option.some.inj hfree)
  have hkeeps : ∀ id t₀, s.arenaTeamStore.lookup id = some t₀ →
      ∃ t', (write { s with cache } { t with members := t.members ++ [guid] }).arenaTeamStore.lookup id =
        some t' ∧ t'.getSlot = t₀.getSlot ∧ ∀ g ∈ t₀.members, g ∈ t'.members := by
    intro id t₀ ht₀
    by_cases hid : id = t.teamId
    · subst hid
      cases ht.symm.trans ht₀
      exact ⟨_, AList.lookup_insert _, rfl, fun g hg => List.mem_append_left _ hg⟩
    · exact ⟨t₀, (AList.lookup_insert_ne hid).trans ht₀, rfl, fun g hg => hg⟩
  refine ⟨h.freed, h.started, fun id t' ht' => ?_, fun id t' ht' g => ?_, fun g i id hlisted hne => ?_,
    fun g p hp => ?_, fun g p hp i hi hne => ?_⟩
  · obtain ⟨rfl, rfl⟩ | ⟨-, hold⟩ := lookup_write.mp ht'
    · exact ⟨rfl, hpos, hlt, hslot, List.nodup_append.mpr ⟨hnodup, List.nodup_singleton guid,
        fun a ha b hb heq => hnot (by rwa [← List.mem_singleton.mp hb, ← heq])⟩⟩
    · exact h.team id t' hold
  · show g ∈ t'.members ↔ ArenaWorld.listed { s with cache } g t'.getSlot.toNat = some id
    rw [hcache g]
    obtain ⟨rfl, rfl⟩ | ⟨hid, hold⟩ := lookup_write.mp ht'
    · by_cases hg : g = guid
      · rw [if_pos ⟨hg, rfl⟩, hg]
        show guid ∈ t.members ++ [guid] ↔ (s.listed guid t.getSlot.toNat).map _ = _
        rw [hfree]
        simp
      · rw [if_neg fun heq => hg heq.1]
        exact (by simp [hg] : g ∈ t.members ++ [guid] ↔ g ∈ t.members).trans (h.member _ _ ht g)
    · rw [h.member id t' hold g]
      split
      · next heq =>
        rw [heq.1, heq.2, hfree]
        simp only [Option.map_some, Option.some.injEq]
        exact ⟨fun hzero => absurd hzero (h.team id t' hold).2.1.symm, fun heq' => absurd heq'.symm hid⟩
      · exact Iff.rfl
  · change ArenaWorld.listed { s with cache } g i = some id at hlisted
    rw [hcache g i] at hlisted
    obtain ⟨t₀, ht₀, hslot₀⟩ : ∃ t₀, s.arenaTeamStore.lookup id = some t₀ ∧ t₀.getSlot.toNat = i := by
      split at hlisted
      · next heq =>
        obtain ⟨-, -, rfl⟩ := Option.map_eq_some_iff.mp hlisted
        exact ⟨t, ht, heq.2.symm⟩
      · exact h.listed g i id hlisted hne
    obtain ⟨t', ht', hslot', -⟩ := hkeeps id t₀ ht₀
    exact ⟨t', ht', by rw [hslot', hslot₀]⟩
  · exact (hcache.known g).trans (h.known g p hp)
  · obtain ⟨t₀, ht₀, hslot₀, hmem⟩ := h.field g p hp i hi hne
    obtain ⟨t', ht', hslot', hsub⟩ := hkeeps _ t₀ ht₀
    exact ⟨t', ht', by rw [hslot', hslot₀], hsub g hmem⟩

/-- **A member whose fields do not say so leaves the team.** -/
theorem Consistent.part (h : s.Consistent) {guid : UInt32}
    (ht : s.arenaTeamStore.lookup t.teamId = some t) (hmem : guid ∈ t.members)
    (hsilent : ∀ p, s.players guid = some p → p.values (t.getSlot.toNat * 6) = 0)
    (hcache : s.Relists cache guid t.getSlot.toNat 0) :
    (write { s with cache } { t with members := t.members.erase guid }).Consistent := by
  obtain ⟨-, hpos, hlt, hslot, hnodup⟩ := h.team _ _ ht
  have hwas := (h.member _ _ ht guid).mp hmem
  have hkeeps : ∀ id t₀, s.arenaTeamStore.lookup id = some t₀ →
      ∃ t', (write { s with cache } { t with members := t.members.erase guid }).arenaTeamStore.lookup id =
        some t' ∧ t'.getSlot = t₀.getSlot ∧
          ∀ g ∈ t₀.members, g ≠ guid ∨ t₀.getSlot ≠ t.getSlot → g ∈ t'.members := by
    intro id t₀ ht₀
    by_cases hid : id = t.teamId
    · subst hid
      cases ht.symm.trans ht₀
      refine ⟨_, AList.lookup_insert _, rfl, fun g hg hother => ?_⟩
      exact (List.mem_erase_of_ne (hother.resolve_right fun hne => hne rfl)).mpr hg
    · exact ⟨t₀, (AList.lookup_insert_ne hid).trans ht₀, rfl, fun g hg _ => hg⟩
  refine ⟨h.freed, h.started, fun id t' ht' => ?_, fun id t' ht' g => ?_, fun g i id hlisted hne => ?_,
    fun g p hp => ?_, fun g p hp i hi hne => ?_⟩
  · obtain ⟨rfl, rfl⟩ | ⟨-, hold⟩ := lookup_write.mp ht'
    · exact ⟨rfl, hpos, hlt, hslot, hnodup.erase guid⟩
    · exact h.team id t' hold
  · show g ∈ t'.members ↔ ArenaWorld.listed { s with cache } g t'.getSlot.toNat = some id
    rw [hcache g]
    obtain ⟨rfl, rfl⟩ | ⟨hid, hold⟩ := lookup_write.mp ht'
    · by_cases hg : g = guid
      · rw [if_pos ⟨hg, rfl⟩, hg]
        show guid ∈ t.members.erase guid ↔ (s.listed guid t.getSlot.toNat).map _ = _
        rw [hwas]
        simp only [Option.map_some, Option.some.injEq]
        exact ⟨fun hstill => absurd hstill hnodup.not_mem_erase, fun hzero => absurd hzero hpos.symm⟩
      · rw [if_neg fun heq => hg heq.1]
        exact (List.mem_erase_of_ne hg).trans (h.member _ _ ht g)
    · rw [h.member id t' hold g]
      split
      · next heq =>
        rw [heq.1, heq.2, hwas]
        simp only [Option.map_some, Option.some.injEq]
        exact ⟨fun heq' => absurd heq'.symm hid, fun hzero => absurd hzero (h.team id t' hold).2.1.symm⟩
      · exact Iff.rfl
  · change ArenaWorld.listed { s with cache } g i = some id at hlisted
    rw [hcache g i] at hlisted
    split at hlisted
    · obtain ⟨-, -, hzero⟩ := Option.map_eq_some_iff.mp hlisted
      exact absurd hzero.symm hne
    · obtain ⟨t₀, ht₀, hslot₀⟩ := h.listed g i id hlisted hne
      obtain ⟨t', ht', hslot', -⟩ := hkeeps id t₀ ht₀
      exact ⟨t', ht', by rw [hslot', hslot₀]⟩
  · exact (hcache.known g).trans (h.known g p hp)
  · obtain ⟨t₀, ht₀, hslot₀, hg⟩ := h.field g p hp i hi hne
    obtain ⟨t', ht', hslot', hsub⟩ := hkeeps _ t₀ ht₀
    refine ⟨t', ht', by rw [hslot', hslot₀], hsub g hg ?_⟩
    by_contra hboth
    obtain ⟨rfl, hsame⟩ := not_or.mp hboth |>.imp not_not.mp not_not.mp
    rw [← hslot₀, hsame] at hne
    exact hne (hsilent p hp)

theorem Consistent.register (h : s.Consistent) (hid : t.teamId = s.nextArenaTeamId)
    (hslot : t.getSlot.toNat < maxArenaSlot) (hempty : t.members = [])
    (hlast : ¬ 0xFFFFFFFE ≤ s.nextArenaTeamId) :
    (write { s with nextArenaTeamId := s.nextArenaTeamId + 1 } t).Consistent := by
  have hgrows : s.nextArenaTeamId < s.nextArenaTeamId + 1 ∧ 0 < s.nextArenaTeamId + 1 := by
    have hlt := UInt32.lt_iff_toNat_lt.mp (UInt32.not_le.mp hlast)
    rw [UInt32.lt_iff_toNat_lt, UInt32.lt_iff_toNat_lt, UInt32.toNat_add]
    simp at hlt ⊢
    omega
  have hnew : s.arenaTeamStore.lookup t.teamId = none := by
    cases hold : s.arenaTeamStore.lookup t.teamId with
    | none => rfl
    | some t₀ => exact absurd (hid ▸ (h.team _ t₀ hold).2.2.1) (UInt32.lt_irrefl _)
  have hkeeps : ∀ id t₀, s.arenaTeamStore.lookup id = some t₀ →
      (write { s with nextArenaTeamId := s.nextArenaTeamId + 1 } t).arenaTeamStore.lookup id = some t₀ := by
    intro id t₀ ht₀
    refine lookup_write.mpr (.inr ⟨?_, ht₀⟩)
    rintro rfl
    rw [hnew] at ht₀
    exact nomatch ht₀
  refine ⟨h.freed, hgrows.2, fun id t' ht' => ?_, fun id t' ht' g => ?_, fun g i id hlisted hne => ?_,
    h.known, fun g p hp i hi hne => ?_⟩
  · obtain ⟨rfl, rfl⟩ | ⟨-, hold⟩ := lookup_write.mp ht'
    · refine ⟨rfl, ?_, hid ▸ hgrows.1, hslot, by rw [hempty]; exact List.nodup_nil⟩
      rw [hid]
      exact (UInt32.ne_of_lt h.started).symm
    · obtain ⟨hteam, hpos, hlt, hrest⟩ := h.team id t' hold
      exact ⟨hteam, hpos, UInt32.lt_trans hlt hgrows.1, hrest⟩
  · obtain ⟨rfl, rfl⟩ | ⟨-, hold⟩ := lookup_write.mp ht'
    · rw [hempty]
      refine ⟨fun hmem => (nomatch hmem), fun hlisted => ?_⟩
      obtain ⟨t₀, ht₀, -⟩ := h.listed g _ _ hlisted (by
        rw [hid]
        exact (UInt32.ne_of_lt h.started).symm)
      rw [hnew] at ht₀
      exact nomatch ht₀
    · exact h.member id t' hold g
  · obtain ⟨t₀, ht₀, hslot₀⟩ := h.listed g i id hlisted hne
    exact ⟨t₀, hkeeps id t₀ ht₀, hslot₀⟩
  · obtain ⟨t₀, ht₀, hslot₀, hmem⟩ := h.field g p hp i hi hne
    exact ⟨t₀, hkeeps _ t₀ ht₀, hslot₀, hmem⟩

theorem Consistent.remove (h : s.Consistent) (ht : s.arenaTeamStore.lookup t.teamId = some t)
    (hempty : t.members = []) :
    Consistent { s with arenaTeamStore := s.arenaTeamStore.erase t.teamId } := by
  have hkeeps : ∀ id t₀, s.arenaTeamStore.lookup id = some t₀ →
      (∃ g, s.listed g t₀.getSlot.toNat = some id) →
      (s.arenaTeamStore.erase t.teamId).lookup id = some t₀ := by
    rintro id t₀ ht₀ ⟨g, hlisted⟩
    have hid : id ≠ t.teamId := by
      rintro rfl
      cases ht.symm.trans ht₀
      have hmem := (h.member _ _ ht g).mpr hlisted
      rw [hempty] at hmem
      exact nomatch hmem
    rw [AList.lookup_erase_ne hid]
    exact ht₀
  have hold : ∀ id t', (s.arenaTeamStore.erase t.teamId).lookup id = some t' →
      s.arenaTeamStore.lookup id = some t' := by
    intro id t' ht'
    by_cases hid : id = t.teamId
    · rw [hid, AList.lookup_erase] at ht'
      exact nomatch ht'
    · exact (AList.lookup_erase_ne hid).symm.trans ht'
  refine ⟨h.freed, h.started, fun id t' ht' => h.team id t' (hold id t' ht'),
    fun id t' ht' => h.member id t' (hold id t' ht'), fun g i id hlisted hne => ?_, h.known,
    fun g p hp i hi hne => ?_⟩
  · obtain ⟨t₀, ht₀, hslot₀⟩ := h.listed g i id hlisted hne
    exact ⟨t₀, hkeeps id t₀ ht₀ ⟨g, by rw [hslot₀]; exact hlisted⟩, hslot₀⟩
  · obtain ⟨t₀, ht₀, hslot₀, hmem⟩ := h.field g p hp i hi hne
    exact ⟨t₀, hkeeps _ t₀ ht₀ ⟨g, (h.member _ t₀ ht₀ g).mp hmem⟩, hslot₀, hmem⟩

end ArenaWorld

end Sunstrider.Battlegrounds

/-!
## Members of arena teams

`AddMember` reads the character cache by the type of the team, where the cache lists the teams by slot. It does
what it should just where both say the same (`Readable`).
-/

namespace Sunstrider.Battlegrounds

open Cache (CharacterCache CharacterRow maxArenaSlot)
open Lib

namespace ArenaWorld

variable {s : ArenaWorld} {t : ArenaTeam} {guid : UInt32}

/-! ## Fields -/

theorem findPlayer_eq_some {p : Player} (h : s.findPlayer guid = some p) : s.players guid = some p :=
  (Option.filter_eq_some_iff.mp h).1

@[simp] theorem values_setUInt32Value (p : Player) (index i : ℕ) (value : UInt32) :
    (p.setUInt32Value index value).values i = if i = index then value else p.values i :=
  Function.update_apply ..

/-- The first field of a slot is the first of the six that are set, or is as it was. -/
theorem values_setArenaTeamInfo (p : Player) (slot i : ℕ) (info : Vector UInt32 6) :
    (p.setArenaTeamInfo slot info).values (i * 6) = if i = slot then info[0] else p.values (i * 6) := by
  rw [Player.setArenaTeamInfo]
  by_cases hi : i = slot
  · subst hi
    simp only [if_true, le_refl, true_and, Nat.lt_add_of_pos_right, Nat.zero_lt_succ, dif_pos, Nat.sub_self]
    rfl
  · rw [if_neg hi]
    exact dif_neg (by omega)

theorem values_inform (t : ArenaTeam) (guid : UInt32) (p : Player) (i : ℕ) :
    (t.inform guid p).values (i * 6) = if i = t.getSlot.toNat then t.teamId else p.values (i * 6) := by
  have h1 : i * 6 ≠ t.getSlot.toNat * 6 + 1 := by omega
  have h5 : i * 6 ≠ t.getSlot.toNat * 6 + 5 := by omega
  have h0 : i * 6 = t.getSlot.toNat * 6 ↔ i = t.getSlot.toNat := by omega
  rw [ArenaTeam.inform]
  split <;> simp [Player.setInArenaTeam, h0, h1, h5]

theorem Consistent.inform (h : s.Consistent) (guid : UInt32) {t' : ArenaTeam}
    (ht' : s.arenaTeamStore.lookup t.teamId = some t') (hslot : t'.getSlot = t.getSlot)
    (hmem : guid ∈ t'.members) : (s.inform t guid).Consistent := by
  rw [ArenaWorld.inform]
  cases hfind : s.findPlayer guid with
  | none => exact h
  | some p =>
    have hp := findPlayer_eq_some hfind
    refine h.setPlayer (h.known guid p hp) fun i hi hne => ?_
    rw [values_inform] at hne ⊢
    by_cases hi' : i = t.getSlot.toNat
    · rw [if_pos hi']
      exact ⟨t', ht', by rw [hslot, hi'], hmem⟩
    · rw [if_neg hi'] at hne ⊢
      exact h.field guid p hp i hi hne

theorem inform_write (s : ArenaWorld) (t t' : ArenaTeam) (guid : UInt32) :
    (s.inform t guid).write t' = (s.write t').inform t guid := by
  rw [inform, inform, show (s.write t').findPlayer guid = s.findPlayer guid from rfl]
  cases s.findPlayer guid <;> rfl

/-- The fields of a player that has left no longer say that it is in a team. -/
theorem Consistent.uninform (h : s.Consistent) (t : ArenaTeam) (guid : UInt32) :
    (s.uninform t guid).Consistent ∧
      ∀ p, (s.uninform t guid).players guid = some p → p.values (t.getSlot.toNat * 6) = 0 := by
  rw [ArenaWorld.uninform]
  cases hp : s.players guid with
  | none =>
    refine ⟨h, fun p hp' => ?_⟩
    rw [hp] at hp'
    exact nomatch hp'
  | some p =>
    have hvalues : ∀ i, ((p.setInArenaTeam 0 t.getSlot).setArenaTeamInfo t.getSlot.toNat
        (.replicate 6 0)).values (i * 6) = if i = t.getSlot.toNat then 0 else p.values (i * 6) := by
      intro i
      rw [values_setArenaTeamInfo, Player.setInArenaTeam, values_setUInt32Value]
      by_cases hi : i = t.getSlot.toNat
      · rw [if_pos hi, if_pos hi]
        simp
      · rw [if_neg hi, if_neg hi, if_neg (by omega)]
    refine ⟨h.setPlayer (h.known guid p hp) fun i hi hne => ?_, fun p' hp' => ?_⟩
    · rw [hvalues] at hne ⊢
      by_cases hi' : i = t.getSlot.toNat
      · rw [if_pos hi'] at hne
        exact absurd rfl hne
      · rw [if_neg hi'] at hne ⊢
        exact h.field guid p hp i hi hne
    · have hself := Function.update_self guid (some ((p.setInArenaTeam 0 t.getSlot).setArenaTeamInfo
        t.getSlot.toNat (.replicate 6 0))) s.players
      rw [← Option.some.inj (hself.symm.trans hp'), hvalues, if_pos rfl]

/-! ## `AddMember` -/

/-- `AddMember` comes to its read of the character cache. -/
def asks (s : ArenaWorld) (t : ArenaTeam) (guid : UInt32) : Bool :=
  decide (t.members.length < t.type.toNat * 2) &&
    !(s.findPlayer guid).any fun p => p.getArenaTeamId t.getSlot ≠ 0

/-- Where `AddMember` comes to its read of the character cache, the type of the team is an index, and the
cache has no team under it just if it has none under the slot. -/
def Readable (s : ArenaWorld) (t : ArenaTeam) (guid : UInt32) : Prop :=
  s.asks t guid = true → ∀ e ∈ s.cache.getCharacterCacheByGuid guid, t.type.toNat < maxArenaSlot ∧
    (e.arenaTeamId[t.type.toNat]? = some 0 ↔ e.arenaTeamId[t.getSlot.toNat]? = some 0)

instance decidableReadable (s : ArenaWorld) (t : ArenaTeam) (guid : UInt32) : Decidable (s.Readable t guid) :=
  inferInstanceAs (Decidable (_ → ∀ _ ∈ _, _))

/-- What `AddMember` may refuse: the team is full, the character is unknown, or it is in a team of the type. -/
def Refusable (s : ArenaWorld) (t : ArenaTeam) (guid : UInt32) : Prop :=
  t.type.toNat * 2 ≤ t.members.length ∨
    (s.findPlayer guid = none ∧ s.cache.getCharacterCacheByGuid guid = none) ∨
    ∃ id t', s.arenaTeamStore.lookup id = some t' ∧ t'.type = t.type ∧ guid ∈ t'.members

/-- A character that the cache lists under the slot of the team is in a team of the type. -/
theorem Consistent.refusable (h : s.Consistent) (hslot : t.getSlot.toNat < maxArenaSlot) {id : UInt32}
    (hlisted : s.listed guid t.getSlot.toNat = some id) (hne : id ≠ 0) : s.Refusable t guid := by
  obtain ⟨t', ht', hslot'⟩ := h.listed _ _ _ hlisted hne
  refine .inr (.inr ⟨id, t', ht', ?_, (h.member id t' ht' guid).mpr (by rw [hslot', hlisted])⟩)
  refine getSlotByType_injective (by rw [show getSlotByType t'.type = t'.getSlot from rfl, hslot']; exact hslot) ?_
  exact UInt8.toNat_inj.mp hslot'

/-- **What `AddMember` does**: it refuses with reason, or the cache has no team of the type for the character,
who becomes a member. -/
theorem addMember_cases (h : s.Consistent) (hslot : t.getSlot.toNat < maxArenaSlot)
    (hread : s.Readable t guid) :
    (s.addMember t guid = .ok (false, s, t) ∧ s.Refusable t guid) ∨
      ∃ cache, s.addMember t guid =
          .ok (true, inform { s with cache } t guid, { t with members := t.members ++ [guid] }) ∧
        s.listed guid t.getSlot.toNat = some 0 ∧ s.Relists cache guid t.getSlot.toNat t.teamId := by
  rw [addMember]
  by_cases hfull : t.type.toNat * 2 ≤ t.members.length
  · rw [if_pos hfull]
    exact .inl ⟨rfl, .inl hfull⟩
  · rw [if_neg hfull]
    by_cases hunknown : ((s.findPlayer guid).isNone && (s.cache.getCharacterCacheByGuid guid).isNone) = true
    · rw [if_pos hunknown]
      obtain ⟨hplayer, hentry⟩ := Bool.and_eq_true_iff.mp hunknown
      exact .inl ⟨rfl, .inr (.inl ⟨Option.isNone_iff_eq_none.mp hplayer, Option.isNone_iff_eq_none.mp hentry⟩)⟩
    · rw [if_neg hunknown, hasSimilarTeam]
      by_cases hfield : ((s.findPlayer guid).any fun p => p.getArenaTeamId t.getSlot ≠ 0) = true
      · rw [if_pos hfield]
        refine .inl ⟨rfl, ?_⟩
        obtain ⟨p, hp, hne⟩ := (Option.any_eq_true ..).mp hfield
        obtain ⟨t', ht', hslot', hmem⟩ := h.field guid p (findPlayer_eq_some hp) _ hslot (of_decide_eq_true hne)
        have hlisted := (h.member _ t' ht' guid).mp hmem
        rw [hslot'] at hlisted
        exact h.refusable hslot hlisted (of_decide_eq_true hne)
      · -- The player has no such team, or is offline: the cache decides.
        rw [if_neg hfield]
        obtain ⟨e, he⟩ : ∃ e, s.cache.getCharacterCacheByGuid guid = some e := by
          refine Option.isSome_iff_exists.mp ?_
          cases hfind : s.findPlayer guid with
          | none =>
            rw [hfind] at hunknown
            cases hentry : s.cache.getCharacterCacheByGuid guid with
            | none => simp [hentry] at hunknown
            | some e => rfl
          | some p => exact h.known guid p (findPlayer_eq_some hfind)
        have hasks : s.asks t guid = true := by
          rw [asks]
          simp only [hfield, not_le.mp hfull]
          rfl
        obtain ⟨hindex, hsame⟩ := hread hasks e he
        have hid : s.getArenaTeamIdFromCharacterInfo guid t.type = .ok e.arenaTeamId[t.type.toNat] := by
          rw [getArenaTeamIdFromCharacterInfo, he]
          exact dif_pos hindex
        have hlisted : s.listed guid t.getSlot.toNat = some e.arenaTeamId[t.getSlot.toNat] := by
          rw [listed, he, Option.bind_some, Vector.getElem?_eq_getElem hslot]
        rw [Vector.getElem?_eq_getElem hindex, Vector.getElem?_eq_getElem hslot, Option.some.injEq,
          Option.some.injEq] at hsame
        rw [hid]
        by_cases hzero : e.arenaTeamId[t.getSlot.toNat] = 0
        · obtain ⟨cache, hcache, hrelists⟩ := updateCharacterArenaTeamId_relists (s := s) guid t.teamId
            hslot
          refine .inr ⟨cache, ?_, by rw [hlisted, hzero], hrelists⟩
          show (if decide (e.arenaTeamId[t.type.toNat] ≠ 0) = true then _ else _) = _
          rw [if_neg (by simp [hsame.mpr hzero]), hcache]
          rfl
        · refine .inl ⟨?_, h.refusable hslot hlisted hzero⟩
          show (if decide (e.arenaTeamId[t.type.toNat] ≠ 0) = true then _ else _) = _
          rw [if_pos (by simpa using fun heq => hzero (hsame.mp heq))]

theorem write_write (s : ArenaWorld) (cache : CharacterCache) (t : ArenaTeam) (members : List UInt32) :
    write ⟨cache, (s.write t).players, (s.write t).arenaTeamStore, (s.write t).freed,
      (s.write t).nextArenaTeamId⟩ { t with members } = write { s with cache } { t with members } := by
  simp [write]

/-- **`AddMember` keeps the teams consistent**, of a team of the store or one that is about to come there. -/
theorem Consistent.addMember (h : s.Consistent) (ht : (s.write t).Consistent) (hread : s.Readable t guid) :
    Yields (s.addMember t guid) fun r => (r.2.1.write r.2.2).Consistent := by
  have hstored : (s.write t).arenaTeamStore.lookup t.teamId = some t := AList.lookup_insert _
  have hslot := (ht.team _ _ hstored).2.2.2.1
  obtain ⟨heq, -⟩ | ⟨cache, heq, hfree, hrelists⟩ := addMember_cases h hslot hread
  · exact ⟨_, heq, ht⟩
  · refine ⟨_, heq, ?_⟩
    have hjoined := ht.join hstored (s := s.write t) hfree hrelists
    rw [write_write] at hjoined
    show (ArenaWorld.write (ArenaWorld.inform { s with cache } t guid) _).Consistent
    rw [inform_write]
    exact hjoined.inform guid (AList.lookup_insert _) rfl (List.mem_append_right _ (List.mem_singleton_self _))

/-! ## `DeleteMember` and `Disband` -/

theorem uninform_write (s : ArenaWorld) (t t' : ArenaTeam) (guid : UInt32) :
    (s.uninform t guid).write t' = (s.write t').uninform t guid := by
  rw [uninform, uninform, show (s.write t').players guid = s.players guid from rfl]
  cases s.players guid <;> rfl

theorem uninform_cache (s : ArenaWorld) (cache : CharacterCache) (t : ArenaTeam) (guid : UInt32) :
    uninform { s with cache } t guid = { s.uninform t guid with cache } := by
  rw [uninform, uninform]
  cases s.players guid <;> rfl

theorem uninform_frame (s : ArenaWorld) (t : ArenaTeam) (guid : UInt32) :
    (s.uninform t guid).cache = s.cache ∧ (s.uninform t guid).arenaTeamStore = s.arenaTeamStore := by
  rw [uninform]
  cases s.players guid <;> exact ⟨rfl, rfl⟩

/-- **`DeleteMember` keeps the teams consistent**, whoever is to be deleted. -/
theorem Consistent.deleteMember (ht : (s.write t).Consistent) (guid : UInt32) :
    Yields (s.deleteMember t guid) fun r =>
      (r.1.write r.2).Consistent ∧ r.2.teamId = t.teamId := by
  have hstored : (s.write t).arenaTeamStore.lookup t.teamId = some t := AList.lookup_insert _
  have hslot := (ht.team _ _ hstored).2.2.2.1
  obtain ⟨hsilent, hzero⟩ := ht.uninform t guid
  rw [ArenaWorld.deleteMember]
  by_cases harena : s.isInArena guid = true
  · rw [if_pos harena]
    exact .ok ⟨ht, rfl⟩
  · rw [if_neg harena]
    by_cases hmem : guid ∈ t.members
    · rw [if_pos hmem]
      obtain ⟨cache, hcache, hrelists⟩ := updateCharacterArenaTeamId_relists (s := s) guid 0 hslot
      rw [hcache]
      refine .ok ⟨?_, rfl⟩
      obtain ⟨hsame, hstore⟩ := uninform_frame (s.write t) t guid
      have hparted := hsilent.part (by rw [hstore]; exact hstored) hmem hzero (hrelists.of_cache hsame)
      rw [← uninform_cache, uninform_write, write_write, ← uninform_write] at hparted
      exact hparted
    · rw [if_neg hmem]
      refine .ok ⟨?_, rfl⟩
      show ((s.uninform t guid).write t).Consistent
      rw [uninform_write]
      exact hsilent

theorem erase_insert (l : AList fun _ : UInt32 => ArenaTeam) (id : UInt32) (t : ArenaTeam) :
    (l.insert id t).erase id = l.erase id := by
  refine AList.ext ?_
  show List.kerase id (⟨id, t⟩ :: List.kerase id l.entries) = List.kerase id l.entries
  exact List.kerase_cons_eq rfl

/-- **`Disband` ends with the team removed, if it ends**: a member in an arena stays for ever. -/
theorem Consistent.disband (ht : (s.write t).Consistent) {guid : UInt32} (harena : s.isInArena guid = false) :
    Avoids (.cache .outOfBounds) (s.disband t guid) fun s' =>
      s'.Consistent ∧ t.teamId ∉ s'.arenaTeamStore := by
  have hrun : s.disband t guid = (s.removeMembers t.members.length t).bind fun x =>
      .ok { x.1 with arenaTeamStore := x.1.arenaTeamStore.erase x.2.teamId } := by
    rw [ArenaWorld.disband, disbandBy, Option.any_some, if_neg (by rw [harena]; exact Bool.false_ne_true)]
    cases s.removeMembers t.members.length t <;> rfl
  rw [hrun]
  refine (Avoids.drain (by decide)
    (fun x : ArenaWorld × ArenaTeam => (x.1.write x.2).Consistent ∧ x.2.teamId = t.teamId) ?_ _
    ⟨ht, rfl⟩).bind ?_
  · rintro ⟨s', t'⟩ member ⟨hx, hid⟩ -
    refine .of_yields ((hx.deleteMember member).mono ?_)
    rintro r ⟨hr, hrid⟩
    exact ⟨hr, hrid.trans hid⟩
  · rintro ⟨s', t'⟩ ⟨⟨hx, hid⟩, hlast⟩
    have hempty : t'.members = [] := List.head?_eq_none_iff.mp hlast
    have hremoved := hx.remove (AList.lookup_insert _) hempty
    have hstore : ((s'.write t').arenaTeamStore.erase t'.teamId) = s'.arenaTeamStore.erase t'.teamId :=
      erase_insert _ _ _
    refine ⟨?_, ?_⟩
    · rw [hstore] at hremoved
      exact hremoved
    · rw [← hid]
      exact fun hmem => (AList.mem_erase.mp hmem).1 rfl

end ArenaWorld

end Sunstrider.Battlegrounds
