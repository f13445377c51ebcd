import Sunstrider.Guilds.Guild

/-!
# Members and ranks

`MembersInOrder`: members under unique guids, five to ten ranks with the ids of their places, and a
rank that exists for every member. Two operations can break it, and `KeepsMembers` says when they do
not; `apply_order` is the invariant of all operations, and `validateMembers_order` its beginning.
-/

namespace Sunstrider.Guilds.Guild

open Sunstrider.Lib (replaceKey removeKey mem_replaceKey map_key_replaceKey mem_removeKey
  nodup_removeKey find_spec)

variable {g g' : Guild}

/-- The number and the ids of the ranks. -/
structure RanksInOrder (g : Guild) : Prop where
  minRanks : guildRanksMinCount ≤ g.ranks.length
  maxRanks : g.ranks.length ≤ guildRanksMaxCount
  rankIds : ∀ (i : ℕ) (r : RankInfo), g.ranks[i]? = some r → r.id = i

/-- Unique guids, and a rank that exists for everybody. -/
structure MembersInOrder (g : Guild) : Prop where
  unique : (g.members.map Member.guid).Nodup
  ranks : g.RanksInOrder
  memberRanks : ∀ m ∈ g.members, m.rankId < g.ranks.length

/-! ## Sizes and lookups -/

theorem RanksInOrder.five_le (h : g.RanksInOrder) : 5 ≤ g.ranks.length := h.minRanks

theorem RanksInOrder.le_ten (h : g.RanksInOrder) : g.ranks.length ≤ 10 := h.maxRanks

theorem RanksInOrder.getRanksSize_eq (h : g.RanksInOrder) : g.getRanksSize = g.ranks.length := by
  have := h.le_ten
  exact Nat.mod_eq_of_lt (by omega)

theorem RanksInOrder.getLowestRankId_eq (h : g.RanksInOrder) :
    g.getLowestRankId = g.ranks.length - 1 := by
  have := h.five_le
  have := h.le_ten
  unfold getLowestRankId
  omega

variable {guid : ℕ} {m : Member}

theorem mem_of_getMember (h : g.getMember guid = some m) :
    m ∈ g.members ∧ m.guid = guid := find_spec h

variable {name : String}

theorem mem_of_getMemberByName (h : g.getMemberByName name = some m) :
    m ∈ g.members := List.mem_of_find?_eq_some h

theorem getMember_isSome_iff : (g.getMember guid).isSome ↔ ∃ m ∈ g.members, m.guid = guid := by
  unfold getMember
  simp

/-! ## Ranks of members -/

variable {m' : Member}

theorem mem_changeRank {newRank : ℕ} :
    m' ∈ (g.changeRank guid newRank).members ↔
      ∃ m ∈ g.members, m' = if m.guid = guid then { m with rankId := newRank % 256 } else m := by
  simp only [changeRank, List.mem_map, eq_comm]

theorem changeRank_guids (g : Guild) (guid newRank : ℕ) :
    (g.changeRank guid newRank).members.map Member.guid = g.members.map Member.guid := by
  simp only [changeRank, List.map_map]
  refine List.map_congr_left fun m _ => ?_
  rw [Function.comp_apply]
  split <;> rfl

section

variable (h : g.MembersInOrder)

include h

theorem changeRank_order (guid : ℕ) {newRank : ℕ}
    (hlt : newRank < g.ranks.length) : (g.changeRank guid newRank).MembersInOrder := by
  refine ⟨changeRank_guids g _ _ ▸ h.unique, ⟨h.ranks.1, h.ranks.2, h.ranks.3⟩, fun m' hm' => ?_⟩
  obtain ⟨m, hm, rfl⟩ := mem_changeRank.mp hm'
  show _ < g.ranks.length
  split
  · exact (Nat.mod_le _ _).trans_lt hlt
  · exact h.memberRanks m hm

theorem setLeaderGUID_order (guid : ℕ) : (g.setLeaderGUID guid).MembersInOrder := by
  have h' : MembersInOrder { g with leaderGuid := guid } :=
    ⟨h.unique, ⟨h.ranks.1, h.ranks.2, h.ranks.3⟩, h.memberRanks⟩
  exact changeRank_order h' guid (Nat.lt_of_lt_of_le (show 0 < 5 by decide) h.ranks.five_le)

theorem handleSetLeader_order (player : ℕ) (name : String) :
    (g.handleSetLeader player name).MembersInOrder := by
  unfold handleSetLeader
  split
  · exact h
  · split
    · exact changeRank_order (setLeaderGUID_order h _) player
        (Nat.lt_of_lt_of_le (show 1 < 5 by decide) h.ranks.five_le)
    · exact h

theorem changeMemberRank_order (guid newRank : ℕ) :
    (g.changeMemberRank guid newRank).MembersInOrder := by
  have := h.ranks.five_le
  unfold changeMemberRank
  split
  · next hc =>
    rw [Bool.and_eq_true, decide_eq_true_eq, h.ranks.getLowestRankId_eq] at hc
    exact changeRank_order h guid (by omega)
  · exact h

/-- A promotion or a demotion, or nothing. No one's rank becomes the guild master's, and the guild
master's is not changed. -/
theorem handleUpdateMemberRank_cases (player : ℕ) (name : String)
    (demote : Bool) : g.handleUpdateMemberRank player name demote = g ∨
      ∃ member ∈ g.members, ∃ newRank, member.rankId ≠ 0 ∧ newRank ≠ 0 ∧ newRank < g.ranks.length ∧
        g.handleUpdateMemberRank player name demote = g.changeRank member.guid newRank := by
  unfold handleUpdateMemberRank
  by_cases hright :
    (!g.hasRankRight player (if demote then grRightDemote else grRightPromote)) = true
  · rw [if_pos hright]
    exact .inl rfl
  · rw [if_neg hright]
    split
    · next member memberMe hm hme =>
      have hmem := mem_of_getMemberByName hm
      have hlt := h.memberRanks member hmem
      have hme' := h.memberRanks memberMe (mem_of_getMember hme).1
      have hmax := h.ranks.le_ten
      split
      · exact .inl rfl
      · split
        · split
          · exact .inl rfl
          · next hlower =>
            split
            · exact .inl rfl
            · next hlow =>
              rw [h.ranks.getLowestRankId_eq] at hlow
              exact .inr ⟨member, hmem, _, by omega, by omega, by omega, rfl⟩
        · split
          · exact .inl rfl
          · next hlower =>
            rw [Nat.mod_eq_of_lt (by omega)] at hlower
            exact .inr ⟨member, hmem, _, by omega, by omega, by omega, rfl⟩
    · exact .inl rfl

theorem handleUpdateMemberRank_order (player : ℕ) (name : String)
    (demote : Bool) : (g.handleUpdateMemberRank player name demote).MembersInOrder := by
  rcases handleUpdateMemberRank_cases h player name demote with heq | ⟨m, -, r, -, -, hlt, heq⟩
  · rw [heq]
    exact h
  · rw [heq]
    exact changeRank_order h m.guid hlt

end

/-! ## Members that come and go -/

theorem addMember_cases (g : Guild) (guid : ℕ) (name : String) (inGuild exist : Bool) (rankId : ℕ) :
    ¬ ((g.getMember guid).isNone ∧ inGuild = false ∧ exist = true) ∧
        g.addMember guid name inGuild exist rankId = g ∨
      ((g.getMember guid).isNone ∧ inGuild = false ∧ exist = true) ∧
        g.addMember guid name inGuild exist rankId = { g with members := g.members ++
          [.new guid name (if rankId = guildRankNone then g.getLowestRankId else rankId)] } := by
  unfold addMember
  cases hm : g.getMember guid <;> cases inGuild <;> cases exist <;> simp

theorem not_mem_of_getMember_isNone (h : (g.getMember guid).isNone) :
    ∀ m ∈ g.members, m.guid ≠ guid := fun m hm heq => by
  have := getMember_isSome_iff.mpr ⟨m, hm, heq⟩
  rw [Option.isNone_iff_eq_none.mp h] at this
  cases this

theorem newRank_lt (h : g.RanksInOrder) {rankId : ℕ}
    (hr : rankId = guildRankNone ∨ rankId < g.ranks.length) :
    (if rankId = guildRankNone then g.getLowestRankId else rankId) < g.ranks.length := by
  have := h.five_le
  split
  · rw [h.getLowestRankId_eq]
    omega
  · next hne => exact hr.resolve_left hne

theorem addMember_order (h : g.MembersInOrder) {inGuild exist : Bool} {rankId : ℕ}
    (hr : (g.getMember guid).isNone ∧ inGuild = false ∧ exist = true →
      rankId = guildRankNone ∨ rankId < g.ranks.length) :
    (g.addMember guid name inGuild exist rankId).MembersInOrder := by
  rcases addMember_cases g guid name inGuild exist rankId with ⟨-, heq⟩ | ⟨hc, heq⟩
  · rw [heq]
    exact h
  · rw [heq]
    refine ⟨?_, ⟨h.ranks.1, h.ranks.2, h.ranks.3⟩, fun m hm => ?_⟩
    · rw [List.map_append, List.nodup_append]
      refine ⟨h.unique, List.nodup_singleton _, fun x hx y hy heq => ?_⟩
      obtain ⟨m, hm, rfl⟩ := List.mem_map.mp hx
      rw [List.map_singleton, List.mem_singleton] at hy
      exact not_mem_of_getMember_isNone hc.1 m hm (heq.trans hy)
    · rcases List.mem_append.mp hm with hm | hm
      · exact h.memberRanks m hm
      · rw [List.mem_singleton.mp hm]
        exact newRank_lt h.ranks (hr hc)

theorem mem_of_selectNewLeader (h : g.selectNewLeader guid = some m) :
    m ∈ g.members ∧ m.guid ≠ guid := by
  have hbest : ∀ b ∈ g.selectNewLeader guid, b ∈ g.members ∧ b.guid ≠ guid := by
    refine List.foldlRecOn (motive := fun best : Option Member => ∀ b ∈ best, b ∈ g.members ∧ b.guid ≠ guid)
      _ _ (fun b hb => absurd hb (Option.not_mem_none b)) fun best hbest a ha => ?_
    have hother : a ∈ g.members ∧ a.guid ≠ guid := by simpa using List.mem_filter.mp ha
    cases best with
    | none =>
      rintro b ⟨⟩
      exact hother
    | some b₀ =>
      dsimp only
      split
      · rintro b ⟨⟩
        exact hother
      · exact hbest
  exact hbest m h

/-- Who leaves takes nothing of the order with him. -/
theorem erase_order (h : g.MembersInOrder) (guid : ℕ) :
    MembersInOrder { g with members := removeKey Member.guid guid g.members } :=
  ⟨nodup_removeKey h.unique, ⟨h.ranks.1, h.ranks.2, h.ranks.3⟩,
    fun m hm => h.memberRanks m (mem_removeKey.mp hm).1⟩

theorem deleteMember_order (h : g.MembersInOrder) (hd : g.deleteMember guid = some g') :
    g'.MembersInOrder := by
  unfold deleteMember at hd
  split at hd
  · obtain ⟨m, hm, rfl⟩ := Option.map_eq_some_iff.mp hd
    exact erase_order (setLeaderGUID_order h m.guid) guid
  · cases hd
    exact erase_order h guid

variable {player : ℕ}

theorem handleLeaveMember_cases (h : g.handleLeaveMember player = some g') :
    g' = g ∨ g.deleteMember player = some g' := by
  unfold handleLeaveMember at h
  split at h
  · split at h
    · exact .inl (Option.some.inj h).symm
    · cases h
  · exact .inr h

theorem handleRemoveMember_cases (h : g.handleRemoveMember player name = some g') :
    g' = g ∨ ∃ member, g.deleteMember member = some g' := by
  unfold handleRemoveMember at h
  repeat' split at h
  all_goals first
    | exact .inl (Option.some.inj h).symm
    | exact .inr ⟨_, h⟩

/-! ## Ranks that come and go -/

/-- The leader, the members and the ids of the ranks are as before. -/
structure SameShape (g g' : Guild) : Prop where
  leaderGuid : g'.leaderGuid = g.leaderGuid
  members : g'.members = g.members
  ranks : g'.ranks.map RankInfo.id = g.ranks.map RankInfo.id

theorem SameShape.refl (g : Guild) : g.SameShape g := ⟨rfl, rfl, rfl⟩

theorem SameShape.trans {g'' : Guild} (h : g.SameShape g') (h' : g'.SameShape g'') :
    g.SameShape g'' :=
  ⟨h'.leaderGuid.trans h.leaderGuid, h'.members.trans h.members, h'.ranks.trans h.ranks⟩

theorem MembersInOrder.of_sameShape (h : g.MembersInOrder) (hs : g.SameShape g') :
    g'.MembersInOrder := by
  have hlength : g'.ranks.length = g.ranks.length := by
    simpa using congrArg List.length hs.ranks
  refine ⟨hs.members ▸ h.unique, ⟨hlength ▸ h.ranks.minRanks, hlength ▸ h.ranks.maxRanks,
    fun i r hr => ?_⟩, ?_⟩
  · have hmap : (g.ranks.map RankInfo.id)[i]? = some r.id := by
      rw [← hs.ranks, List.getElem?_map, hr]
      rfl
    rw [List.getElem?_map] at hmap
    obtain ⟨r₀, hr₀, hid⟩ := Option.map_eq_some_iff.mp hmap
    exact hid.symm.trans (h.ranks.rankIds i r₀ hr₀)
  · rw [hs.members, hlength]
    exact h.memberRanks

theorem writeRank_sameShape (g : Guild) (rankId : ℕ) {f : RankInfo → RankInfo}
    (hf : ∀ r, (f r).id = r.id) : g.SameShape (g.writeRank rankId f) := by
  unfold writeRank
  split
  · refine ⟨rfl, rfl, List.ext_getElem? fun i => ?_⟩
    show ((g.ranks.modify rankId f).map RankInfo.id)[i]? = _
    rw [List.getElem?_map, List.getElem?_modify, List.getElem?_map]
    cases g.ranks[i]? with
    | none => rfl
    | some r =>
      by_cases hi : rankId = i
      · simp [hi, hf r]
      · simp [hi]
  · exact .refl g

theorem handleSetRankInfo_sameShape (g : Guild) (player rankId : ℕ) (name : String)
    (rights : Rights) (moneyPerDay : ℕ) (rs : List GuildBankRightsAndSlots) :
    g.SameShape (g.handleSetRankInfo player rankId name rights moneyPerDay rs) := by
  have htabs : ∀ (rs : List GuildBankRightsAndSlots) (g : Guild),
      g.SameShape (rs.foldl (fun g rs => g.setRankBankTabRightsAndSlots rankId rs) g) := by
    intro rs
    induction rs with
    | nil => exact .refl
    | cons r rs ih =>
      intro g
      have hone : g.SameShape (g.setRankBankTabRightsAndSlots rankId r) := by
        unfold setRankBankTabRightsAndSlots
        split
        · exact .refl g
        · exact writeRank_sameShape g rankId fun _ => rfl
      exact hone.trans (ih _)
  unfold handleSetRankInfo
  split
  · exact .refl g
  · split
    · exact .refl g
    · have hrights : g.SameShape (g.writeRank rankId fun r =>
          { r with name := name }.setRights rights) := writeRank_sameShape g rankId fun _ => rfl
      have hmoney : g.SameShape ((g.writeRank rankId fun r => { r with name := name }.setRights
          rights).writeRank rankId fun r => r.setBankMoneyPerDay moneyPerDay) :=
        hrights.trans (writeRank_sameShape _ rankId fun _ => rfl)
      exact hmoney.trans (htabs rs _)

theorem handleAddNewRank_cases (h : g.RanksInOrder) (player : ℕ) (name : String) :
    g.handleAddNewRank player name = g ∨ g.ranks.length < guildRanksMaxCount ∧
      g.handleAddNewRank player name = { g with ranks := g.ranks ++
        [.new g.ranks.length name (grRightGChatListen ||| grRightGChatSpeak) 0] } := by
  unfold handleAddNewRank
  rw [h.getRanksSize_eq]
  split
  · exact .inl rfl
  · next hsize =>
    split
    · unfold createRank
      rw [h.getRanksSize_eq, if_neg hsize]
      exact .inr ⟨not_le.mp hsize, rfl⟩
    · exact .inl rfl

/-- A new rank is the lowest. -/
theorem handleAddNewRank_order (h : g.MembersInOrder) (player : ℕ) (name : String) :
    (g.handleAddNewRank player name).MembersInOrder := by
  rcases handleAddNewRank_cases h.ranks player name with heq | ⟨hlt, heq⟩
  · rw [heq]
    exact h
  · rw [heq]
    refine ⟨h.unique, ⟨?_, ?_, fun i r hr => ?_⟩, fun m hm => ?_⟩
    · rw [List.length_append]
      exact h.ranks.minRanks.trans (Nat.le_add_right _ _)
    · rw [List.length_append]
      exact hlt
    · rw [List.getElem?_append] at hr
      split at hr
      · exact h.ranks.rankIds i r hr
      · next hi =>
        rw [List.getElem?_singleton] at hr
        split at hr
        · next h0 =>
          cases hr
          show g.ranks.length = i
          omega
        · cases hr
    · rw [List.length_append]
      exact (h.memberRanks m hm).trans_le (Nat.le_add_right _ _)

theorem handleRemoveLowestRank_cases (h : g.RanksInOrder) (player : ℕ) :
    ¬ (guildRanksMinCount < g.ranks.length ∧ g.isLeader player) ∧
        g.handleRemoveLowestRank player = g ∨
      (guildRanksMinCount < g.ranks.length ∧ g.isLeader player) ∧
        g.handleRemoveLowestRank player = { g with ranks := g.ranks.dropLast } := by
  have hmin := h.five_le
  have hlt : ¬ g.ranks.length ≤ g.ranks.length - 1 := by omega
  unfold handleRemoveLowestRank handleRemoveRank
  rw [h.getRanksSize_eq, h.getLowestRankId_eq]
  by_cases hmore : g.ranks.length ≤ guildRanksMinCount
  · refine .inl ⟨fun hc => absurd hc.1 (Nat.not_lt.mpr hmore), ?_⟩
    rw [decide_eq_true hmore, Bool.true_or, Bool.true_or, if_pos rfl]
  · cases hl : g.isLeader player <;> simp [hmore, hlt, not_le.mp hmore]

/-- The removal of the last rank keeps the order just if nobody has it. -/
theorem dropLast_order_iff (h : g.MembersInOrder) (hmore : guildRanksMinCount < g.ranks.length) :
    MembersInOrder { g with ranks := g.ranks.dropLast } ↔
      ∀ m ∈ g.members, m.rankId ≠ g.ranks.length - 1 := by
  constructor
  · intro hh m hm heq
    have := hh.memberRanks m hm
    rw [List.length_dropLast] at this
    omega
  · intro hm
    refine ⟨h.unique, ⟨?_, ?_, fun i r hr => ?_⟩, fun m hmem => ?_⟩
    · rw [List.length_dropLast]
      omega
    · rw [List.length_dropLast]
      exact (Nat.sub_le _ _).trans h.ranks.maxRanks
    · rw [List.getElem?_dropLast] at hr
      split at hr
      · exact h.ranks.rankIds i r hr
      · cases hr
    · rw [List.length_dropLast]
      have hlt := h.memberRanks m hmem
      have hne := hm m hmem
      omega

/-! ## Money -/

/-- A withdrawal writes what the member has withdrawn, and takes the money out of the bank. -/
theorem handleMemberWithdrawMoney_cases {purse amount : ℕ} {repair : Bool} {r : Guild × ℕ}
    (h : g.handleMemberWithdrawMoney player purse amount repair = some r) :
    ∃ member, g.getMember player = some member ∧
      ((min amount Player.maxMoneyAmount : ℕ) : ℤ) ≤ g.getMemberRemainingMoney member % 2 ^ 32 ∧
      r.1 = (g.writeMember (member.updateBankWithdrawValue guildBankMaxTabs
        (min amount Player.maxMoneyAmount))).modifyBankMoney (min amount Player.maxMoneyAmount)
          false := by
  unfold handleMemberWithdrawMoney at h
  dsimp only at h
  split at h
  · cases h
  · split at h
    · cases h
    · next member hm =>
      split at h
      · cases h
      · next hremaining =>
        split at h
        · cases h
        · cases h
          exact ⟨member, hm, Int.not_lt.mp hremaining, rfl⟩

theorem modifyBankMoney_sameShape (g : Guild) (amount : ℕ) (add : Bool) :
    g.SameShape (g.modifyBankMoney amount add) := by
  unfold modifyBankMoney
  repeat' split
  all_goals exact ⟨rfl, rfl, rfl⟩

theorem mem_writeMember {a : Member} (hm : m ∈ g.members) (hguid : m'.guid = m.guid)
    (hrank : m'.rankId = m.rankId) (ha : a ∈ (g.writeMember m').members) :
    ∃ b ∈ g.members, a.guid = b.guid ∧ a.rankId = b.rankId := by
  rcases mem_replaceKey ha with rfl | ⟨ha, -⟩
  · exact ⟨m, hm, hguid, hrank⟩
  · exact ⟨a, ha, rfl, rfl⟩

theorem writeMember_order (h : g.MembersInOrder) (hm : m ∈ g.members) (hguid : m'.guid = m.guid)
    (hrank : m'.rankId = m.rankId) : (g.writeMember m').MembersInOrder := by
  refine ⟨?_, ⟨h.ranks.1, h.ranks.2, h.ranks.3⟩, fun a ha => ?_⟩
  · show ((replaceKey Member.guid m' g.members).map Member.guid).Nodup
    rw [map_key_replaceKey]
    exact h.unique
  · obtain ⟨b, hb, -, hr⟩ := mem_writeMember hm hguid hrank ha
    exact hr ▸ h.memberRanks b hb

/-- A withdrawal moves no rank. -/
theorem handleMemberWithdrawMoney_order (h : g.MembersInOrder) {purse amount : ℕ} {repair : Bool}
    {r : Guild × ℕ} (hr : g.handleMemberWithdrawMoney player purse amount repair = some r) :
    r.1.MembersInOrder := by
  obtain ⟨member, hm, -, heq⟩ := handleMemberWithdrawMoney_cases hr
  have hwritten : (g.writeMember (member.updateBankWithdrawValue guildBankMaxTabs
      (min amount Player.maxMoneyAmount))).MembersInOrder :=
    writeMember_order h (mem_of_getMember hm).1 rfl rfl
  rw [heq]
  exact hwritten.of_sameShape (modifyBankMoney_sameShape _ _ false)

/-! ## Every operation -/

/-- What keeps the members in order. The other operations always do. -/
def KeepsMembers (g : Guild) : Op → Prop
  | .addMember guid _ inGuild exist rankId =>
    (g.getMember guid).isNone ∧ inGuild = false ∧ exist = true →
      rankId.toNat = guildRankNone ∨ rankId.toNat < g.ranks.length
  | .removeLowestRank player =>
    guildRanksMinCount < g.ranks.length ∧ g.isLeader player →
      ∀ m ∈ g.members, m.rankId ≠ g.ranks.length - 1
  | _ => True

instance (g : Guild) : ∀ op, Decidable (g.KeepsMembers op)
  | .addMember .. | .removeLowestRank .. => by
    unfold KeepsMembers
    infer_instance
  | .deleteMember _ | .leaveMember _ | .removeMember .. | .updateMemberRank .. | .addNewRank ..
  | .setRankInfo .. | .depositMoney .. | .withdrawMoney .. | .changeMemberRank .. | .setLeader .. =>
    .isTrue trivial

/-- **The members stay in order.** -/
theorem apply_order (h : g.MembersInOrder) {op : Op} (hk : g.KeepsMembers op)
    (ho : g.apply op = some g') : g'.MembersInOrder := by
  cases op with
  | addMember guid name inGuild exist rankId =>
    cases ho
    exact addMember_order h hk
  | deleteMember guid => exact deleteMember_order h ho
  | changeMemberRank guid newRank =>
    cases ho
    exact changeMemberRank_order h _ _
  | setLeader player name =>
    cases ho
    exact handleSetLeader_order h _ _
  | leaveMember player =>
    rcases handleLeaveMember_cases ho with rfl | hd
    · exact h
    · exact deleteMember_order h hd
  | removeMember player name =>
    rcases handleRemoveMember_cases ho with rfl | ⟨m, hd⟩
    · exact h
    · exact deleteMember_order h hd
  | updateMemberRank player name demote =>
    cases ho
    exact handleUpdateMemberRank_order h _ _ _
  | addNewRank player name =>
    cases ho
    exact handleAddNewRank_order h _ _
  | removeLowestRank player =>
    cases ho
    rcases handleRemoveLowestRank_cases h.ranks player with ⟨-, heq⟩ | ⟨hc, heq⟩
    · rw [heq]
      exact h
    · rw [heq]
      exact (dropLast_order_iff h hc.1).mpr (hk hc)
  | setRankInfo player rankId name rights money rs =>
    cases ho
    exact h.of_sameShape (handleSetRankInfo_sameShape g _ _ _ _ _ _)
  | depositMoney purse amount =>
    cases ho
    exact h.of_sameShape (modifyBankMoney_sameShape g _ true)
  | withdrawMoney player purse amount repair =>
    cases ho
    cases hw : g.handleMemberWithdrawMoney player purse amount.toNat repair with
    | none => exact h
    | some r => exact handleMemberWithdrawMoney_order h hw

/-! ## Loading -/

/-- The ranks that `Guild::_CreateDefaultGuildRanks` makes. -/
def defaultRanks : List RankInfo :=
  [.new 0 "Guild Master" grRightAll 0, .new 1 "Officer" grRightAll 0,
    .new 2 "Veteran" (grRightGChatListen ||| grRightGChatSpeak) 0,
    .new 3 "Member" (grRightGChatListen ||| grRightGChatSpeak) 0,
    .new 4 "Initiate" (grRightGChatListen ||| grRightGChatSpeak) 0]

theorem createDefaultGuildRanks_eq (g : Guild) :
    { g with ranks := [] }.createDefaultGuildRanks = { g with ranks := defaultRanks } := rfl

/-- A rank has an 8-bit id in the table of ranks, so a guild has at most 256. -/
theorem validateRanks_inOrder (hsize : g.ranks.length ≤ 256) : g.validateRanks.RanksInOrder := by
  unfold validateRanks
  split
  · rw [createDefaultGuildRanks_eq]
    refine ⟨(by decide : 5 ≤ defaultRanks.length), (by decide : defaultRanks.length ≤ 10), ?_⟩
    have hall : ∀ i < 5, ∀ r, defaultRanks[i]? = some r → r.id = i := by decide
    intro i r hr
    obtain ⟨hlt, -⟩ := List.getElem?_eq_some_iff.mp hr
    exact hall i hlt r hr
  · next hb =>
    simp only [brokenRanks, Bool.or_eq_true, decide_eq_true_eq, List.any_eq_true, List.mem_range,
      not_or, not_lt] at hb
    obtain ⟨⟨hmin, hmax⟩, hids⟩ := hb
    have hlength : g.getRanksSize = g.ranks.length := by
      unfold getRanksSize guildRanksMinCount at *
      omega
    rw [hlength] at hmin hmax hids
    refine ⟨?_, ?_, fun i r hr => ?_⟩
    · rw [List.length_map]
      exact hmin
    · rw [List.length_map]
      exact hmax
    · rw [List.getElem?_map] at hr
      obtain ⟨r₀, hr₀, rfl⟩ := Option.map_eq_some_iff.mp hr
      show r₀.id = i
      by_contra hne
      obtain ⟨hlt, -⟩ := List.getElem?_eq_some_iff.mp hr₀
      exact hids ⟨i, hlt, by simp [hr₀, hne]⟩

theorem validateRanks_members (g : Guild) :
    g.validateRanks.members = g.members ∧ g.validateRanks.leaderGuid = g.leaderGuid := by
  unfold validateRanks
  split <;> exact ⟨rfl, rfl⟩

/-- Validation compares a rank with the number of ranks itself, so a rank one too high is left. -/
theorem validateMembers_order (hunique : (g.members.map Member.guid).Nodup) (hr : g.RanksInOrder)
    (hmembers : ∀ m ∈ g.members, m.rankId ≠ g.ranks.length) : g.validateMembers.MembersInOrder := by
  have hmin := hr.five_le
  refine ⟨?_, ⟨hr.1, hr.2, hr.3⟩, fun m hm => ?_⟩
  · have hsame : g.members.map (Member.guid ∘ fun m =>
        if g.getRanksSize < m.rankId then { m with rankId := g.getLowestRankId } else m) =
        g.members.map Member.guid := List.map_congr_left fun m _ => by
      rw [Function.comp_apply]
      split <;> rfl
    unfold validateMembers
    rw [List.map_map, hsame]
    exact hunique
  · obtain ⟨m₀, hm₀, rfl⟩ := List.mem_map.mp hm
    show _ < g.ranks.length
    have hne := hmembers m₀ hm₀
    split
    · show g.getLowestRankId < _
      rw [hr.getLowestRankId_eq]
      omega
    · next hle =>
      rw [hr.getRanksSize_eq] at hle
      omega

/-- A leader who is no member is deleted, and one of another rank gets the first. -/
theorem validateLeader_order (h : g.MembersInOrder) (hv : g.validateLeader = some g') :
    g'.MembersInOrder := by
  unfold validateLeader at hv
  split at hv
  · exact deleteMember_order h hv
  · cases hv
    split
    · exact setLeaderGUID_order h _
    · exact h

theorem demoteOthers_order (h : g.MembersInOrder) : g.demoteOthers.MembersInOrder := by
  refine ⟨?_, ⟨h.ranks.1, h.ranks.2, h.ranks.3⟩, fun m' hm' => ?_⟩
  · have hsame : g.members.map (Member.guid ∘ fun m => if m.rankId = grGuildmaster ∧
        m.guid ≠ g.leaderGuid then { m with rankId := grOfficer } else m) =
        g.members.map Member.guid := List.map_congr_left fun m _ => by
      rw [Function.comp_apply]
      split <;> rfl
    unfold demoteOthers
    rw [List.map_map, hsame]
    exact h.unique
  · obtain ⟨m, hm, rfl⟩ := List.mem_map.mp hm'
    show _ < g.ranks.length
    split
    · exact Nat.lt_of_lt_of_le (show 1 < 5 by decide) h.ranks.five_le
    · exact h.memberRanks m hm

/-- What `Guild::Validate` relies on: unique guids, a number of ranks that fits, and no rank that is
one too high. -/
structure Loadable (g : Guild) : Prop where
  unique : (g.members.map Member.guid).Nodup
  ranks : g.ranks.length ≤ 256
  memberRanks : ∀ m ∈ g.members, m.rankId ≠ g.validateRanks.ranks.length

/-- **Validation puts the members in order.** -/
theorem validate_order (h : g.Loadable) (allowMultiple : Bool)
    (hv : g.validate allowMultiple = some g') : g'.MembersInOrder := by
  have hkept := (validateRanks_members g).1
  have hmembers : g.validateRanks.validateMembers.MembersInOrder :=
    validateMembers_order (hkept ▸ h.unique) (validateRanks_inOrder h.ranks) (hkept ▸ h.memberRanks)
  obtain ⟨g₁, hg₁, rfl⟩ := Option.map_eq_some_iff.mp hv
  have horder := validateLeader_order hmembers hg₁
  split
  · exact horder
  · exact demoteOthers_order horder

/-- A guild of a leader and a member, with the default ranks. -/
def guildOfTwo : Guild :=
  { leaderGuid := 1
    members := [.new 1 "Ada" 0, .new 2 "Bob" 4]
    ranks := defaultRanks
    bankTabs := []
    bankMoney := 0
    bankLoaded := true }

end Sunstrider.Guilds.Guild
