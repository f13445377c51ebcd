import Sunstrider.Laws.Guilds.Members
import Sunstrider.Lib.Run

/-!
# The hierarchy of a guild

`Hierarchy` is what `Guild::Validate` repairs when a guild is loaded: the number and the ids of the
ranks, ranks of members that exist, one guild master, who is the leader. Four operations can break it.
`apply_hierarchy_iff` says for every operation when it does not, and `hierarchy_all_along_iff` says it
of runs.
-/

namespace Sunstrider.Guilds.Guild

open Sunstrider.Lib (removeKey mem_removeKey eq_of_key AllAlong always_iff_allAlong)

/-- Ranks in sequence, members with ranks that exist, and the leader as the one guild master. -/
structure Hierarchy (g : Guild) : Prop where
  minRanks : guildRanksMinCount ≤ g.ranks.length
  maxRanks : g.ranks.length ≤ guildRanksMaxCount
  rankIds : ∀ (i : ℕ) (r : RankInfo), g.ranks[i]? = some r → r.id = i
  memberRanks : ∀ m ∈ g.members, m.rankId < g.ranks.length
  leader : ∃ m ∈ g.members, m.guid = g.leaderGuid ∧ m.rankId = grGuildmaster
  onlyLeader : ∀ m ∈ g.members, m.rankId = grGuildmaster → m.guid = g.leaderGuid

/-- The hierarchy of a guild that is not disbanded. -/
def Hierarchical (s : Option Guild) : Prop := ∀ g, s = some g → g.Hierarchy

/-- The leader is a guild master. -/
def Led (g : Guild) : Prop := ∃ m ∈ g.members, m.guid = g.leaderGuid ∧ m.rankId = grGuildmaster

/-- Nobody else is one. -/
def OneMaster (g : Guild) : Prop :=
  ∀ m ∈ g.members, m.rankId = grGuildmaster → m.guid = g.leaderGuid

/-- The hierarchy, of members under unique guids. -/
structure HierarchyInv (g : Guild) : Prop where
  order : g.MembersInOrder
  led : g.Led ∧ g.OneMaster

variable {g g' : Guild}

theorem MembersInOrder.hierarchy_iff (h : g.MembersInOrder) : g.Hierarchy ↔ g.Led ∧ g.OneMaster :=
  ⟨fun hh => ⟨hh.leader, hh.onlyLeader⟩, fun hl => ⟨h.ranks.minRanks, h.ranks.maxRanks,
    h.ranks.rankIds, h.memberRanks, hl.1, hl.2⟩⟩

theorem HierarchyInv.leader (h : g.HierarchyInv) : g.Led := h.led.1

theorem HierarchyInv.onlyLeader (h : g.HierarchyInv) : g.OneMaster := h.led.2

theorem HierarchyInv.hierarchy (h : g.HierarchyInv) : g.Hierarchy :=
  h.order.hierarchy_iff.mpr h.led

/-- Only the leader passes for one. -/
theorem HierarchyInv.isLeader_iff (h : g.HierarchyInv) (guid : ℕ) :
    g.isLeader guid ↔ guid = g.leaderGuid := by
  unfold isLeader
  rw [Bool.or_eq_true, decide_eq_true_eq]
  refine ⟨fun hl => hl.elim id fun hl => ?_, .inl⟩
  cases hm : g.getMember guid with
  | none =>
    rw [hm] at hl
    cases hl
  | some m =>
    obtain ⟨hmem, rfl⟩ := mem_of_getMember hm
    rw [hm] at hl
    exact h.onlyLeader m hmem (by simpa using hl)

/-! ## Ranks of members -/

variable {guid : ℕ}

/-- A member's new rank keeps the hierarchy just if it is the rank of the guild master for the leader
and for nobody else. -/
theorem changeRank_led_iff (h : g.HierarchyInv) {newRank : ℕ}
    (hmem : ∃ m ∈ g.members, m.guid = guid) (hrank : newRank < g.ranks.length) :
    (g.changeRank guid newRank).Led ∧ (g.changeRank guid newRank).OneMaster ↔
      (newRank = grGuildmaster ↔ guid = g.leaderGuid) := by
  have hmax := h.order.ranks.le_ten
  have hmod : newRank % 256 = newRank := Nat.mod_eq_of_lt (by omega)
  obtain ⟨m, hm, rfl⟩ := hmem
  constructor
  · rintro ⟨hled, hone⟩
    have hnew : { m with rankId := newRank % 256 } ∈ (g.changeRank m.guid newRank).members :=
      mem_changeRank.mpr ⟨m, hm, (if_pos rfl).symm⟩
    have honly := hone _ hnew
    refine ⟨fun h0 => honly (hmod.trans h0), fun hl => ?_⟩
    obtain ⟨l, hlmem, hlguid, hlrank⟩ := hled
    obtain ⟨m', -, rfl⟩ := mem_changeRank.mp hlmem
    by_cases hg : m'.guid = m.guid
    · rw [if_pos hg] at hlrank
      exact hmod.symm.trans hlrank
    · rw [if_neg hg] at hlguid
      exact absurd (hlguid.trans hl.symm) hg
  · intro hiff
    constructor
    · obtain ⟨l, hl, hlguid, hlrank⟩ := h.leader
      refine ⟨_, mem_changeRank.mpr ⟨l, hl, rfl⟩, ?_⟩
      split
      · next hg => exact ⟨hlguid, hmod.trans (hiff.mpr (hg.symm.trans hlguid))⟩
      · exact ⟨hlguid, hlrank⟩
    · intro m' hm' h0
      obtain ⟨m₀, hm₀, rfl⟩ := mem_changeRank.mp hm'
      by_cases hg : m₀.guid = m.guid
      · rw [if_pos hg] at h0 ⊢
        exact hg.trans (hiff.mp (hmod.symm.trans h0))
      · rw [if_neg hg] at h0 ⊢
        exact h.onlyLeader m₀ hm₀ h0

theorem changeMemberRank_led_iff (h : g.HierarchyInv) (guid newRank : ℕ) :
    (g.changeMemberRank guid newRank).Led ∧ (g.changeMemberRank guid newRank).OneMaster ↔
      (newRank ≤ g.getLowestRankId ∧ (g.getMember guid).isSome →
        (newRank = grGuildmaster ↔ guid = g.leaderGuid)) := by
  have hmin := h.order.ranks.five_le
  unfold changeMemberRank
  split
  next hc =>
    rw [Bool.and_eq_true, decide_eq_true_eq] at hc
    rw [forall_prop_of_true hc]
    refine changeRank_led_iff h (getMember_isSome_iff.mp hc.2) ?_
    have := h.order.ranks.getLowestRankId_eq
    omega
  next hc =>
    refine iff_of_true h.led fun hc' => absurd hc' ?_
    simpa using hc

/-- A rank that is changed by one is not the guild master's, of before or of after. -/
theorem handleUpdateMemberRank_inv (h : g.HierarchyInv) (player : ℕ) (name : String)
    (demote : Bool) : (g.handleUpdateMemberRank player name demote).HierarchyInv := by
  rcases handleUpdateMemberRank_cases h.order player name demote with
    heq | ⟨member, hm, newRank, h0, hnew, hlt, heq⟩
  · rw [heq]
    exact h
  · have hled := (changeRank_led_iff h ⟨member, hm, rfl⟩ hlt).mpr (iff_of_false hnew fun hl => h0 <| by
      obtain ⟨l, hlmem, hlguid, hlrank⟩ := h.leader
      cases eq_of_key h.order.unique hm hlmem (hl.trans hlguid.symm)
      exact hlrank)
    rw [heq]
    exact ⟨changeRank_order h.order _ hlt, hled⟩

/-! ## The leader -/

/-- A new leader is led by himself, and is the one master if only he could have been one before. -/
theorem setLeaderGUID_led (g : Guild) (hmem : ∃ m ∈ g.members, m.guid = guid) :
    (g.setLeaderGUID guid).Led ∧
      ((∀ m ∈ g.members, m.rankId = grGuildmaster → m.guid = guid) →
        (g.setLeaderGUID guid).OneMaster) := by
  unfold setLeaderGUID
  refine ⟨?_, fun hmasters m' hm' h0 => ?_⟩
  · obtain ⟨m, hm, rfl⟩ := hmem
    refine ⟨_, mem_changeRank.mpr ⟨m, hm, rfl⟩, ?_⟩
    rw [if_pos rfl]
    exact ⟨rfl, rfl⟩
  · obtain ⟨m, hm, rfl⟩ := mem_changeRank.mp hm'
    show _ = guid
    by_cases hg : m.guid = guid
    · rw [if_pos hg]
      exact hg
    · rw [if_neg hg] at h0 ⊢
      exact hmasters m hm h0

/-- A new leader, whose rank the old one's rank does not overwrite. -/
theorem setLeader_led_iff (h : g.HierarchyInv) {newLeader : Member} (hnew : newLeader ∈ g.members) :
    ((g.setLeaderGUID newLeader.guid).changeRank g.leaderGuid grOfficer).Led ∧
        ((g.setLeaderGUID newLeader.guid).changeRank g.leaderGuid grOfficer).OneMaster ↔
      newLeader.guid ≠ g.leaderGuid := by
  constructor
  · rintro ⟨⟨l, hl, hlguid, hlrank⟩, -⟩ heq
    obtain ⟨m, -, rfl⟩ := mem_changeRank.mp hl
    change _ = newLeader.guid at hlguid
    by_cases hg : m.guid = g.leaderGuid
    · rw [if_pos hg] at hlrank
      cases hlrank
    · rw [if_neg hg] at hlguid
      exact hg (hlguid.trans heq)
  · intro hne
    obtain ⟨⟨l, hl, hlguid, hlrank⟩, -⟩ := setLeaderGUID_led g ⟨newLeader, hnew, rfl⟩
    constructor
    · refine ⟨_, mem_changeRank.mpr ⟨l, hl, rfl⟩, ?_⟩
      rw [if_neg fun heq => hne (hlguid.symm.trans heq)]
      exact ⟨hlguid, hlrank⟩
    · intro m' hm' h0
      obtain ⟨m₁, hm₁, rfl⟩ := mem_changeRank.mp hm'
      by_cases hold : m₁.guid = g.leaderGuid
      · rw [if_pos hold] at h0
        cases h0
      · rw [if_neg hold] at h0 ⊢
        obtain ⟨m, hm, rfl⟩ := mem_changeRank.mp hm₁
        show _ = newLeader.guid
        by_cases hg : m.guid = newLeader.guid
        · rw [if_pos hg]
          exact hg
        · rw [if_neg hg] at h0 hold
          exact absurd (h.onlyLeader m hm h0) hold

theorem handleSetLeader_led_iff (h : g.HierarchyInv) (player : ℕ) (name : String) :
    (g.handleSetLeader player name).Led ∧ (g.handleSetLeader player name).OneMaster ↔
      (g.isLeader player → ∀ m ∈ g.getMemberByName name, m.guid ≠ player) := by
  unfold handleSetLeader
  split
  next hl => exact iff_of_true h.led fun hl' => absurd hl (by simp [hl'])
  next hl =>
    have hleader : g.isLeader player := by simpa using hl
    cases (h.isLeader_iff player).mp hleader
    rw [forall_prop_of_true hleader]
    have hmember : (g.getMember g.leaderGuid).isSome := by
      obtain ⟨l, hlmem, hlguid, -⟩ := h.leader
      exact getMember_isSome_iff.mpr ⟨l, hlmem, hlguid⟩
    obtain ⟨me, hme⟩ := Option.isSome_iff_exists.mp hmember
    rw [hme]
    cases hn : g.getMemberByName name with
    | none => exact iff_of_true h.led fun _ hm => (nomatch hm)
    | some m =>
      refine (setLeader_led_iff h (mem_of_getMemberByName hn)).trans ?_
      exact ⟨fun hne _ hm => Option.some.inj hm ▸ hne, fun hall => hall m rfl⟩

/-! ## Members that come and go -/

theorem addMember_hierarchy_iff (h : g.HierarchyInv) {name : String} {inGuild exist : Bool}
    {rankId : ℕ} :
    (g.addMember guid name inGuild exist rankId).Hierarchy ↔
      ((g.getMember guid).isNone ∧ inGuild = false ∧ exist = true →
        rankId = guildRankNone ∨ 0 < rankId ∧ rankId < g.ranks.length) := by
  have hmin := h.order.ranks.five_le
  rcases addMember_cases g guid name inGuild exist rankId with ⟨hc, heq⟩ | ⟨hc, heq⟩
  · rw [heq]
    exact iff_of_true h.hierarchy fun hc' => absurd hc' hc
  · rw [heq, forall_prop_of_true hc]
    have hfresh := not_mem_of_getMember_isNone hc.1
    have hlow := h.order.ranks.getLowestRankId_eq
    constructor
    · intro hh
      have hnew := List.mem_append_right g.members (List.mem_singleton_self
        (Member.new guid name (if rankId = guildRankNone then g.getLowestRankId else rankId)))
      have hlt := hh.memberRanks _ hnew
      have hpos : (if rankId = guildRankNone then g.getLowestRankId else rankId) ≠ 0 := fun h0 => by
        obtain ⟨l, hl, hlguid, -⟩ := h.leader
        exact hfresh l hl (hlguid.trans (hh.onlyLeader _ hnew h0).symm)
      by_cases hnone : rankId = guildRankNone
      · exact .inl hnone
      · rw [if_neg hnone] at hpos
        change (if rankId = guildRankNone then g.getLowestRankId else rankId) < _ at hlt
        rw [if_neg hnone] at hlt
        exact .inr ⟨Nat.pos_of_ne_zero hpos, hlt⟩
    · intro hr
      have horder : (g.addMember guid name inGuild exist rankId).MembersInOrder :=
        addMember_order h.order fun _ => hr.imp_right And.right
      rw [heq] at horder
      refine horder.hierarchy_iff.mpr ⟨?_, fun m hm h0 => ?_⟩
      · obtain ⟨l, hl, hleader⟩ := h.leader
        exact ⟨l, List.mem_append_left _ hl, hleader⟩
      · rcases List.mem_append.mp hm with hm | hm
        · exact h.onlyLeader m hm h0
        · rw [List.mem_singleton.mp hm] at h0
          change (if rankId = guildRankNone then g.getLowestRankId else rankId) = 0 at h0
          split at h0
          · omega
          · next hne => exact absurd h0 (hr.resolve_left hne).1.ne'

theorem erase_led (hne : g.leaderGuid ≠ guid) (hl : g.Led) :
    Led { g with members := removeKey Member.guid guid g.members } := by
  obtain ⟨l, hlmem, hlguid, hlrank⟩ := hl
  exact ⟨l, mem_removeKey.mpr ⟨hlmem, fun heq => hne (hlguid.symm.trans heq)⟩, hlguid, hlrank⟩

theorem deleteMember_inv (h : g.HierarchyInv) (hd : g.deleteMember guid = some g') :
    g'.HierarchyInv := by
  refine ⟨deleteMember_order h.order hd, ?_⟩
  unfold deleteMember at hd
  split at hd
  next hl =>
    -- the leader goes, and another member is the leader
    obtain ⟨m, hm, rfl⟩ := Option.map_eq_some_iff.mp hd
    obtain ⟨hmem, hne⟩ := mem_of_selectNewLeader hm
    refine ⟨erase_led hne (setLeaderGUID_led g ⟨m, hmem, rfl⟩).1, fun m' hm' h0 => ?_⟩
    obtain ⟨hm', hg⟩ := mem_removeKey.mp hm'
    obtain ⟨m₀, hm₀, rfl⟩ := mem_changeRank.mp hm'
    show _ = m.guid
    by_cases heq : m₀.guid = m.guid
    · rw [if_pos heq]
      exact heq
    · rw [if_neg heq] at h0 hg
      exact absurd ((h.onlyLeader m₀ hm₀ h0).trans hl) hg
  next hl =>
    cases hd
    exact ⟨erase_led hl h.leader, fun m hm => h.onlyLeader m (mem_removeKey.mp hm).1⟩

variable {player : ℕ}

section

variable (h : g.HierarchyInv)

include h

theorem handleLeaveMember_inv (hl : g.handleLeaveMember player = some g') : g'.HierarchyInv := by
  rcases handleLeaveMember_cases hl with rfl | hd
  · exact h
  · exact deleteMember_inv h hd

theorem handleRemoveMember_inv {name : String}
    (hr : g.handleRemoveMember player name = some g') : g'.HierarchyInv := by
  rcases handleRemoveMember_cases hr with rfl | ⟨m, hd⟩
  · exact h
  · exact deleteMember_inv h hd

/-! ## Ranks that come and go -/

theorem HierarchyInv.of_sameShape (hs : g.SameShape g') : g'.HierarchyInv := by
  refine ⟨h.order.of_sameShape hs, ?_, ?_⟩
  · unfold Led
    rw [hs.members, hs.leaderGuid]
    exact h.leader
  · unfold OneMaster
    rw [hs.members, hs.leaderGuid]
    exact h.onlyLeader

theorem handleAddNewRank_inv (player : ℕ) (name : String) :
    (g.handleAddNewRank player name).HierarchyInv := by
  refine ⟨handleAddNewRank_order h.order player name, ?_⟩
  rcases handleAddNewRank_cases h.order.ranks player name with heq | ⟨-, heq⟩ <;> rw [heq]
  · exact h.led
  · exact h.led

theorem handleRemoveLowestRank_hierarchy_iff (player : ℕ) :
    (g.handleRemoveLowestRank player).Hierarchy ↔
      (guildRanksMinCount < g.ranks.length ∧ g.isLeader player →
        ∀ m ∈ g.members, m.rankId ≠ g.ranks.length - 1) := by
  rcases handleRemoveLowestRank_cases h.order.ranks player with ⟨hc, heq⟩ | ⟨hc, heq⟩
  · rw [heq]
    exact iff_of_true h.hierarchy fun hc' => absurd hc' hc
  · rw [heq, forall_prop_of_true hc, ← dropLast_order_iff h.order hc.1]
    exact ⟨fun hh => ⟨h.order.unique, ⟨hh.minRanks, hh.maxRanks, hh.rankIds⟩, hh.memberRanks⟩,
      fun horder => horder.hierarchy_iff.mpr h.led⟩

/-! ## Money -/

theorem writeMember_inv {m m' : Member} (hm : m ∈ g.members)
    (hguid : m'.guid = m.guid) (hrank : m'.rankId = m.rankId) : (g.writeMember m').HierarchyInv := by
  refine ⟨writeMember_order h.order hm hguid hrank, ?_, fun a ha h0 => ?_⟩
  · obtain ⟨l, hl, hlguid, hlrank⟩ := h.leader
    refine ⟨_, List.mem_map_of_mem hl, ?_⟩
    split
    · next heq =>
      cases eq_of_key h.order.unique hl hm (heq.trans hguid)
      exact ⟨hguid.trans hlguid, hrank.trans hlrank⟩
    · exact ⟨hlguid, hlrank⟩
  · obtain ⟨b, hb, hg, hr⟩ := mem_writeMember hm hguid hrank ha
    exact hg.trans (h.onlyLeader b hb (hr.symm.trans h0))

theorem handleMemberWithdrawMoney_inv {purse amount : ℕ} {repair : Bool}
    {r : Guild × ℕ} (hr : g.handleMemberWithdrawMoney player purse amount repair = some r) :
    r.1.HierarchyInv := by
  obtain ⟨member, hm, -, heq⟩ := handleMemberWithdrawMoney_cases hr
  have hwritten : (g.writeMember (member.updateBankWithdrawValue guildBankMaxTabs
      (min amount Player.maxMoneyAmount))).HierarchyInv :=
    writeMember_inv h (mem_of_getMember hm).1 rfl rfl
  rw [heq]
  exact hwritten.of_sameShape (modifyBankMoney_sameShape _ _ false)

end

/-! ## Every operation -/

/-- What keeps the hierarchy. The other operations always do. -/
def KeepsOrder (g : Guild) : Op → Prop
  | .addMember guid _ inGuild exist rankId =>
    (g.getMember guid).isNone ∧ inGuild = false ∧ exist = true →
      rankId.toNat = guildRankNone ∨ 0 < rankId.toNat ∧ rankId.toNat < g.ranks.length
  | .changeMemberRank guid newRank =>
    newRank.toNat ≤ g.getLowestRankId ∧ (g.getMember guid).isSome →
      (newRank.toNat = grGuildmaster ↔ guid = g.leaderGuid)
  | .setLeader player name =>
    g.isLeader player → ∀ m ∈ g.getMemberByName name, m.guid ≠ player
  | .removeLowestRank player =>
    guildRanksMinCount < g.ranks.length ∧ g.isLeader player →
      ∀ m ∈ g.members, m.rankId ≠ g.ranks.length - 1
  | _ => True

instance (g : Guild) : ∀ op, Decidable (g.KeepsOrder op)
  | .addMember .. | .changeMemberRank .. | .setLeader .. | .removeLowestRank .. => by
    unfold KeepsOrder
    infer_instance
  | .deleteMember _ | .leaveMember _ | .removeMember .. | .updateMemberRank .. | .addNewRank ..
  | .setRankInfo .. | .depositMoney .. | .withdrawMoney .. => .isTrue trivial

/-- The invariant of a guild that is not disbanded. -/
def StateInv (s : Option Guild) : Prop := ∀ g, s = some g → g.HierarchyInv

theorem hierarchical_some : Hierarchical (some g) ↔ g.Hierarchy :=
  ⟨fun h => h g rfl, fun h _ hg => Option.some.inj hg ▸ h⟩

/-- **An operation keeps the hierarchy just if it keeps the order**; and guids stay unique. -/
theorem apply_hierarchy_iff (h : g.HierarchyInv) (op : Op) :
    (Hierarchical (g.apply op) ↔ g.KeepsOrder op) ∧ (g.KeepsOrder op → StateInv (g.apply op)) := by
  -- an operation that always keeps the invariant
  have always : ∀ {s : Option Guild}, StateInv s →
      (Hierarchical s ↔ True) ∧ (True → StateInv s) := fun hs =>
    ⟨iff_of_true (fun g' hg => (hs g' hg).hierarchy) trivial, fun _ => hs⟩
  have one : ∀ {g' : Guild}, g'.HierarchyInv → StateInv (some g') := fun h' _ hg =>
    Option.some.inj hg ▸ h'
  -- an operation that keeps the hierarchy on a condition, which keeps the order too
  have sometimes : ∀ {g' : Guild} {c : Prop}, (c → g'.MembersInOrder) → (g'.Hierarchy ↔ c) →
      (Hierarchical (some g') ↔ c) ∧ (c → StateInv (some g')) :=
    fun ho hiff => ⟨hierarchical_some.trans hiff, fun hc => one
      ⟨ho hc, (hiff.mpr hc).leader, (hiff.mpr hc).onlyLeader⟩⟩
  cases op with
  | addMember guid name inGuild exist rankId =>
    exact sometimes (fun hc => addMember_order h.order fun hnew => (hc hnew).imp_right And.right)
      (addMember_hierarchy_iff h)
  | deleteMember guid => exact always fun g' => deleteMember_inv h
  | changeMemberRank guid newRank =>
    have ho := changeMemberRank_order h.order guid newRank.toNat
    exact sometimes (fun _ => ho) (ho.hierarchy_iff.trans (changeMemberRank_led_iff h _ _))
  | setLeader player name =>
    have ho := handleSetLeader_order h.order player name
    exact sometimes (fun _ => ho) (ho.hierarchy_iff.trans (handleSetLeader_led_iff h _ _))
  | leaveMember player => exact always fun g' => handleLeaveMember_inv h
  | removeMember player name => exact always fun g' => handleRemoveMember_inv h
  | updateMemberRank player name demote => exact always (one (handleUpdateMemberRank_inv h _ _ _))
  | addNewRank player name => exact always (one (handleAddNewRank_inv h _ _))
  | removeLowestRank player =>
    refine sometimes (fun hc => ?_) (handleRemoveLowestRank_hierarchy_iff h player)
    have hkeeps : g.KeepsMembers (.removeLowestRank player) := hc
    exact apply_order h.order hkeeps rfl
  | setRankInfo player rankId name rights money rs =>
    exact always (one (h.of_sameShape (handleSetRankInfo_sameShape g _ _ _ _ _ _)))
  | depositMoney purse amount =>
    exact always (one (h.of_sameShape (modifyBankMoney_sameShape g _ true)))
  | withdrawMoney player purse amount repair =>
    refine always (one ?_)
    cases hw : g.handleMemberWithdrawMoney player purse amount.toNat repair with
    | none => exact h
    | some r => exact handleMemberWithdrawMoney_inv h hw

/-! ## Loading -/

/-- What `Guild::Validate` does not repair: a member's rank that is one too high, and, where the
option allows it, a guild master who is not the leader. -/
structure Repairable (allowMultipleGuildMaster : Bool) (g : Guild) : Prop extends g.Loadable where
  masters : allowMultipleGuildMaster = true →
    ∀ m ∈ g.members, m.rankId = grGuildmaster → m.guid = g.leaderGuid

theorem validateLeader_led (hv : g.validateLeader = some g') :
    g'.Led ∧ (g.OneMaster → g'.OneMaster) := by
  unfold validateLeader at hv
  split at hv
  next hnone =>
    -- the leader is no member, and another one takes his place
    unfold deleteMember at hv
    rw [if_pos rfl] at hv
    obtain ⟨m, hm, rfl⟩ := Option.map_eq_some_iff.mp hv
    obtain ⟨hmem, hne⟩ := mem_of_selectNewLeader hm
    obtain ⟨hled, hmasters⟩ := setLeaderGUID_led g ⟨m, hmem, rfl⟩
    refine ⟨erase_led hne hled, fun hone a ha h0 => ?_⟩
    refine hmasters (fun b hb hb0 => ?_) a (mem_removeKey.mp ha).1 h0
    have := getMember_isSome_iff.mpr ⟨b, hb, hone b hb hb0⟩
    rw [hnone] at this
    cases this
  next pLeader hsome =>
    obtain ⟨hmem, hguid⟩ := mem_of_getMember hsome
    cases hv
    split
    · exact setLeaderGUID_led g ⟨pLeader, hmem, hguid⟩
    · next h0 => exact ⟨⟨pLeader, hmem, hguid, not_not.mp h0⟩, id⟩

theorem demoteOthers_led (hl : g.Led) : g.demoteOthers.Led ∧ g.demoteOthers.OneMaster := by
  refine ⟨?_, fun m' hm' h0 => ?_⟩
  · obtain ⟨l, hlmem, hlguid, hlrank⟩ := hl
    refine ⟨_, List.mem_map_of_mem hlmem, ?_⟩
    rw [if_neg fun hc => hc.2 hlguid]
    exact ⟨hlguid, hlrank⟩
  · obtain ⟨m, hm, rfl⟩ := List.mem_map.mp hm'
    show _ = g.leaderGuid
    split at h0
    · cases h0
    · next hc =>
      rw [if_neg hc]
      by_contra hne
      exact hc ⟨h0, hne⟩

/-- The members that validation moves to the lowest rank are no masters. -/
theorem validateMembers_oneMaster (hr : g.RanksInOrder) (h : g.OneMaster) :
    g.validateMembers.OneMaster := by
  intro m' hm' h0
  obtain ⟨m, hm, rfl⟩ := List.mem_map.mp hm'
  show _ = g.leaderGuid
  split at h0
  · have hmin := hr.five_le
    change g.getLowestRankId = 0 at h0
    rw [hr.getLowestRankId_eq] at h0
    omega
  · next hc =>
    rw [if_neg hc]
    exact h m hm h0

/-- **A guild that `Validate` can repair is in order afterwards.** -/
theorem validate_inv {allowMultiple : Bool} (h : g.Repairable allowMultiple) :
    StateInv (g.validate allowMultiple) := by
  intro g' hg'
  have horder := validate_order h.toLoadable allowMultiple hg'
  obtain ⟨g₁, hg₁, rfl⟩ := Option.map_eq_some_iff.mp hg'
  obtain ⟨hled, hmasters⟩ := validateLeader_led hg₁
  refine ⟨horder, ?_⟩
  split
  · next hallow =>
    refine ⟨hled, hmasters (validateMembers_oneMaster (validateRanks_inOrder h.ranks) ?_)⟩
    unfold OneMaster
    rw [(validateRanks_members g).1, (validateRanks_members g).2]
    exact h.masters hallow
  · exact demoteOthers_led hled

/-! ## Every run -/

/-- What keeps the hierarchy of a guild that is not disbanded. -/
def Admits : Option Guild → Op → Prop
  | some g, op => g.KeepsOrder op
  | none, _ => True

instance : ∀ s op, Decidable (Admits s op)
  | some g, op => inferInstanceAs (Decidable (g.KeepsOrder op))
  | none, _ => .isTrue trivial

/-- **The hierarchy holds all along a run just if every operation keeps the order.** The run starts
from a guild as `Guild::Validate` leaves it. -/
theorem hierarchy_all_along_iff {allowMultiple : Bool} {loaded : Guild}
    (h : loaded.Repairable allowMultiple) (ops : List Op) :
    (∀ l, l <+: ops → Hierarchical (l.foldl step (loaded.validate allowMultiple))) ↔
      AllAlong step Admits (loaded.validate allowMultiple) ops := by
  have keeps : ∀ s op, StateInv s → Admits s op → StateInv (step s op) := fun s op hs ha => by
    cases s with
    | none => exact fun _ h => (nomatch h)
    | some g => exact (apply_hierarchy_iff (hs g rfl) op).2 ha
  have breaks : ∀ s op, StateInv s → Hierarchical (step s op) → Admits s op := fun s op hs hh => by
    cases s with
    | none => trivial
    | some g => exact (apply_hierarchy_iff (hs g rfl) op).1.mp hh
  exact always_iff_allAlong keeps (fun _ hs g hg => (hs g hg).hierarchy) breaks (validate_inv h) ops

/-- The leader promotes the member, makes room for an initiate, and hands the guild over. -/
def orderlyOps : List Op :=
  [.updateMemberRank 1 "Bob" false, .addNewRank 1 "Guest", .addMember 3 "Cid" false true 0xFF,
    .updateMemberRank 1 "Cid" false, .removeLowestRank 1, .setLeader 1 "Bob", .leaveMember 1]

theorem guildOfTwo_repairable : guildOfTwo.Repairable false :=
  ⟨⟨by decide, by decide, by decide⟩, fun h => (nomatch h)⟩

theorem orderly_run_keeps_hierarchy :
    Hierarchical (orderlyOps.foldl step (guildOfTwo.validate false)) :=
  (hierarchy_all_along_iff guildOfTwo_repairable orderlyOps).mpr (by decide +kernel) orderlyOps
    List.prefix_rfl

/-- The leader names himself, and is an officer. -/
theorem leader_named_by_himself_is_no_master :
    ¬ Hierarchical ([Op.setLeader 1 "Ada"].foldl step (guildOfTwo.validate false)) := by
  intro h
  have hleader := (h _ rfl).leader
  revert hleader
  decide +kernel

end Sunstrider.Guilds.Guild
