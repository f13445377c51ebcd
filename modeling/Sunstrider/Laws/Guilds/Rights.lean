import Sunstrider.Laws.Guilds.Members
import Sunstrider.Lib.Run

/-!
# Guild rights

`_HasRankRight` compares with the marker bit that all rights share, and the money left for a member
takes the right to withdraw for repairs for the right to withdraw. `hasRankRight_sound_iff` says which
masks grant no right that they do not contain, and `rights_granted_all_along` that no member has a
right without a grant in a run in which all masks are of this kind.
-/

namespace Sunstrider.Guilds

open Sunstrider.Lib (AllAlong foldl_keeps_of_allAlong)

/-! ## Masks -/

/-- The rights that `_HasRankRight` is asked for. -/
def markedRights : List Rights :=
  [grRightGChatListen, grRightGChatSpeak, grRightOffChatListen, grRightOffChatSpeak, grRightInvite,
    grRightRemove, grRightPromote, grRightDemote, grRightSetMotd, grRightEpNote, grRightViewOffNote,
    grRightEOffNote, grRightModifyGuildInfo]

/-- The bits of a right, without the marker. -/
def properBits (right : Rights) : Rights := right &&& ~~~grRightEmpty

/-- The mask has all of these bits. -/
def Contains (mask bits : Rights) : Prop := mask &&& bits = bits

instance (mask bits : Rights) : Decidable (Contains mask bits) :=
  inferInstanceAs (Decidable (_ = _))

/-- The mask has the marker, or nothing to gain from its absence; and whoever withdraws for repairs
may withdraw. -/
structure WellMasked (mask : Rights) : Prop where
  marker : Contains mask grRightEmpty ∨ ∀ right ∈ markedRights, Contains mask (properBits right)
  gold : Contains mask grRightWithdrawRepair → Contains mask grRightWithdrawGold

instance (mask : Rights) : Decidable (WellMasked mask) :=
  decidable_of_iff
    ((Contains mask grRightEmpty ∨ ∀ right ∈ markedRights, Contains mask (properBits right)) ∧
      (Contains mask grRightWithdrawRepair → Contains mask grRightWithdrawGold))
    ⟨fun h => ⟨h.1, h.2⟩, fun h => ⟨h.1, h.2⟩⟩

/-- A marked right is the marker and one bit. -/
theorem markedRights_one_bit : ∀ right ∈ markedRights, ∃ i : ℕ,
    right = grRightEmpty ||| BitVec.twoPow 32 i ∧ properBits right = BitVec.twoPow 32 i := by
  unfold markedRights
  simp only [List.forall_mem_cons, List.not_mem_nil, false_imp_iff, implies_true, and_true]
  exact ⟨⟨0, rfl, rfl⟩, ⟨1, rfl, rfl⟩, ⟨2, rfl, rfl⟩, ⟨3, rfl, rfl⟩, ⟨4, rfl, rfl⟩, ⟨5, rfl, rfl⟩,
    ⟨7, rfl, rfl⟩, ⟨8, rfl, rfl⟩, ⟨12, rfl, rfl⟩, ⟨13, rfl, rfl⟩, ⟨14, rfl, rfl⟩, ⟨15, rfl, rfl⟩,
    ⟨16, rfl, rfl⟩⟩

/-- A mask has one bit of its own, or not at all. -/
theorem contains_twoPow_or (mask : Rights) (i : ℕ) :
    Contains mask (BitVec.twoPow 32 i) ∨ mask &&& BitVec.twoPow 32 i = 0 := by
  unfold Contains
  rw [BitVec.and_twoPow]
  split
  · exact .inl rfl
  · exact .inr rfl

/-- **Which masks grant nothing that they do not contain**: those with the marker, and those with
every marked right. -/
theorem hasRankRight_sound_iff (mask : Rights) :
    (∀ right ∈ markedRights, mask &&& right ≠ grRightEmpty → Contains mask (properBits right)) ↔
      Contains mask grRightEmpty ∨ ∀ right ∈ markedRights, Contains mask (properBits right) := by
  constructor
  · intro h
    by_cases hmarker : Contains mask grRightEmpty
    · exact .inl hmarker
    · refine .inr fun right hright => h right hright fun heq => hmarker ?_
      unfold Contains
      rw [← heq, ← BitVec.and_assoc, BitVec.and_self]
  · rintro (hmarker | hall) right hright hne
    · obtain ⟨i, hmarked, hbits⟩ := markedRights_one_bit right hright
      rw [hbits]
      refine (contains_twoPow_or mask i).resolve_right fun hzero => hne ?_
      have hdistrib : mask &&& (grRightEmpty ||| BitVec.twoPow 32 i) =
          (mask &&& grRightEmpty) ||| (mask &&& BitVec.twoPow 32 i) := BitVec.and_or_distrib_left ..
      rw [hmarked, hdistrib, hmarker, hzero]
      exact BitVec.or_zero
    · exact hall right hright

/-- A mask with one of the two rights to the money of the bank has the right to withdraw. -/
theorem WellMasked.withdraws {mask : Rights} (h : WellMasked mask)
    (hmoney : mask &&& (grRightWithdrawRepair ||| grRightWithdrawGold) ≠ 0) :
    Contains mask grRightWithdrawGold := by
  rcases contains_twoPow_or mask 19 with hgold | hgold
  · exact hgold
  · refine (contains_twoPow_or mask 18).elim (fun hrepair => h.gold hrepair) fun hrepair => ?_
    have hdistrib : mask &&& (grRightWithdrawRepair ||| grRightWithdrawGold) =
        (mask &&& grRightWithdrawRepair) ||| (mask &&& grRightWithdrawGold) :=
      BitVec.and_or_distrib_left ..
    refine absurd ?_ hmoney
    rw [hdistrib]
    exact (congrArg₂ _ hrepair hgold).trans BitVec.or_zero

namespace Guild

variable {g g' : Guild}

/-! ## Rights of members -/

/-- The guid is of a member, of a rank that exists and whose mask has these bits. -/
def RankContains (g : Guild) (guid : ℕ) (bits : Rights) : Prop :=
  ∃ m r, g.getMember guid = some m ∧ g.getRankInfo m.rankId = some r ∧ Contains r.rights bits

/-- Nobody has a right that his rank does not grant, and nobody withdraws money whose rank may not. -/
structure Granted (g : Guild) : Prop where
  rights : ∀ guid, ∀ right ∈ markedRights, g.hasRankRight guid right →
    g.RankContains guid (properBits right)
  gold : ∀ guid purse amount, 0 < amount →
    (g.handleMemberWithdrawMoney guid purse amount false).isSome →
    g.RankContains guid grRightWithdrawGold

/-- The same of a guild that is not disbanded. -/
def GrantedIn (s : Option Guild) : Prop := ∀ g, s = some g → g.Granted

/-- A rank whose mask grants what it contains. The guild master's may withdraw money. -/
structure GoodRank (r : RankInfo) : Prop where
  mask : WellMasked r.rights
  master : r.id = grGuildmaster → Contains r.rights grRightWithdrawGold

instance (r : RankInfo) : Decidable (GoodRank r) :=
  decidable_of_iff
    (WellMasked r.rights ∧ (r.id = grGuildmaster → Contains r.rights grRightWithdrawGold))
    ⟨fun h => ⟨h.1, h.2⟩, fun h => ⟨h.1, h.2⟩⟩

/-- Members in order, and good ranks. -/
structure RightsInv (g : Guild) : Prop where
  order : g.MembersInOrder
  ranks : ∀ r ∈ g.ranks, GoodRank r

variable {guid : ℕ}

theorem RightsInv.rank_of_member (h : g.RightsInv) {m : Member} (hm : g.getMember guid = some m) :
    ∃ r, g.getRankInfo m.rankId = some r ∧ g.getRankRights m.rankId = r.rights ∧
      r.id = m.rankId ∧ GoodRank r := by
  have hlt := h.order.memberRanks m (mem_of_getMember hm).1
  have hget := List.getElem?_eq_getElem hlt
  have hrank : g.getRankInfo m.rankId = some g.ranks[m.rankId] := by
    unfold getRankInfo
    rw [h.order.ranks.getRanksSize_eq, if_pos hlt, hget]
  refine ⟨_, hrank, ?_, h.order.ranks.rankIds _ _ hget, h.ranks _ (List.mem_of_getElem? hget)⟩
  unfold getRankRights
  rw [hrank]
  rfl

theorem RightsInv.hasRankRight (h : g.RightsInv) {right : Rights} (hright : right ∈ markedRights)
    (hhas : g.hasRankRight guid right) : g.RankContains guid (properBits right) := by
  unfold Guild.hasRankRight at hhas
  cases hm : g.getMember guid with
  | none =>
    rw [hm] at hhas
    cases hhas
  | some m =>
    obtain ⟨r, hrank, hmask, -, hgood⟩ := h.rank_of_member hm
    rw [hm] at hhas
    simp only [decide_eq_true_eq] at hhas
    rw [hmask] at hhas
    exact ⟨m, r, hm, hrank,
      (hasRankRight_sound_iff r.rights).mpr hgood.mask.marker right hright hhas⟩

/-- Nothing is left for a member whose rank may not withdraw money. -/
theorem RightsInv.getMemberRemainingMoney (h : g.RightsInv) {m : Member}
    (hm : g.getMember guid = some m) (hne : g.getMemberRemainingMoney m ≠ 0) :
    g.RankContains guid grRightWithdrawGold := by
  obtain ⟨r, hrank, hmask, hid, hgood⟩ := h.rank_of_member hm
  refine ⟨m, r, hm, hrank, ?_⟩
  unfold Guild.getMemberRemainingMoney at hne
  split at hne
  · next h0 => exact hgood.master (hid.trans h0)
  · split at hne
    · next hmoney => exact hgood.mask.withdraws (hmask ▸ hmoney)
    · exact absurd rfl hne

theorem RightsInv.granted (h : g.RightsInv) : g.Granted := by
  refine ⟨fun guid right hright hhas => h.hasRankRight hright hhas,
    fun guid purse amount hpos hsome => ?_⟩
  obtain ⟨r, hr⟩ := Option.isSome_iff_exists.mp hsome
  obtain ⟨m, hm, hremaining, -⟩ := handleMemberWithdrawMoney_cases hr
  refine h.getMemberRemainingMoney hm fun h0 => ?_
  have hmax : 0 < Player.maxMoneyAmount := by decide
  omega

/-! ## Ranks that change -/

/-- A leader gives a rank a mask that grants what it contains. The guild master's is not his to
choose. -/
def MasksWell (g : Guild) : Op → Prop
  | .setRankInfo player rankId _ rights _ _ =>
    g.isLeader player → ∀ r ∈ g.getRankInfo rankId.toNat, r.id ≠ grGuildmaster → WellMasked rights
  | _ => True

instance (g : Guild) : ∀ op, Decidable (g.MasksWell op)
  | .setRankInfo .. => by
    unfold MasksWell
    infer_instance
  | .addMember .. | .changeMemberRank .. | .setLeader .. | .removeLowestRank .. | .deleteMember _
  | .leaveMember _ | .removeMember .. | .updateMemberRank .. | .addNewRank .. | .depositMoney ..
  | .withdrawMoney .. => .isTrue trivial

theorem writeRank_good (h : ∀ r ∈ g.ranks, GoodRank r) {rankId : ℕ} {f : RankInfo → RankInfo}
    (hf : ∀ r, g.getRankInfo rankId = some r → GoodRank (f r)) :
    ∀ r ∈ (g.writeRank rankId f).ranks, GoodRank r := by
  unfold writeRank
  split
  · next hlt =>
    intro r hr
    obtain ⟨i, hi⟩ := List.mem_iff_getElem?.mp hr
    change (g.ranks.modify rankId f)[i]? = some r at hi
    rw [List.getElem?_modify] at hi
    obtain ⟨r₀, hr₀, rfl⟩ := Option.map_eq_some_iff.mp hi
    split
    · next heq =>
      refine hf r₀ ?_
      unfold getRankInfo
      rw [if_pos hlt, heq]
      exact hr₀
    · exact h r₀ (List.mem_of_getElem? hr₀)
  · exact h

theorem writeRank_good_of_same (h : ∀ r ∈ g.ranks, GoodRank r) (rankId : ℕ)
    {f : RankInfo → RankInfo} (hf : ∀ r, (f r).rights = r.rights ∧ (f r).id = r.id) :
    ∀ r ∈ (g.writeRank rankId f).ranks, GoodRank r := by
  refine writeRank_good h fun r hr => ?_
  have hmem : r ∈ g.ranks := by
    unfold getRankInfo at hr
    split at hr
    · exact List.mem_of_getElem? hr
    · cases hr
  have hgood := h r hmem
  exact ⟨(hf r).1 ▸ hgood.mask, fun h0 => (hf r).1 ▸ hgood.master ((hf r).2 ▸ h0)⟩

theorem setRights_good (r : RankInfo) {rights : Rights}
    (h : r.id ≠ grGuildmaster → WellMasked rights) : GoodRank (r.setRights rights) := by
  have hall : WellMasked grRightAll := by decide
  have hgold : Contains grRightAll grRightWithdrawGold := by decide
  unfold RankInfo.setRights
  by_cases h0 : r.id = grGuildmaster
  · rw [if_pos h0]
    exact ⟨hall, fun _ => hgold⟩
  · rw [if_neg h0]
    exact ⟨h h0, fun h0' => absurd h0' h0⟩

theorem handleSetRankInfo_good (h : ∀ r ∈ g.ranks, GoodRank r) (player rankId : ℕ) (name : String)
    (rights : Rights) (moneyPerDay : ℕ) (rs : List GuildBankRightsAndSlots)
    (hk : g.isLeader player → ∀ r ∈ g.getRankInfo rankId, r.id ≠ grGuildmaster → WellMasked rights) :
    ∀ r ∈ (g.handleSetRankInfo player rankId name rights moneyPerDay rs).ranks, GoodRank r := by
  have htabs : ∀ (rs : List GuildBankRightsAndSlots) (g : Guild), (∀ r ∈ g.ranks, GoodRank r) →
      ∀ r ∈ (rs.foldl (fun g rs => g.setRankBankTabRightsAndSlots rankId rs) g).ranks,
        GoodRank r := by
    intro rs
    induction rs with
    | nil => exact fun g hg => hg
    | cons rs₁ rs ih =>
      intro g hg
      have hone : ∀ r ∈ (g.setRankBankTabRightsAndSlots rankId rs₁).ranks, GoodRank r := by
        unfold setRankBankTabRightsAndSlots
        split
        · exact hg
        · exact writeRank_good_of_same hg rankId fun _ => ⟨rfl, rfl⟩
      exact ih _ hone
  unfold handleSetRankInfo
  split
  · exact h
  · next hleader =>
    split
    · exact h
    · have hrights : ∀ r ∈ (g.writeRank rankId fun r =>
          { r with name := name }.setRights rights).ranks, GoodRank r :=
        writeRank_good h fun r hr => setRights_good _ (hk (by simpa using hleader) r hr)
      exact htabs rs _ (writeRank_good_of_same hrights rankId fun _ => ⟨rfl, rfl⟩)

/-- The operations on ranks. -/
def Op.onRanks : Op → Bool
  | .addNewRank .. | .removeLowestRank .. | .setRankInfo .. => true
  | _ => false

theorem deleteMember_ranks (hd : g.deleteMember guid = some g') : g'.ranks = g.ranks := by
  unfold deleteMember at hd
  split at hd
  · obtain ⟨m, -, rfl⟩ := Option.map_eq_some_iff.mp hd
    rfl
  · cases hd
    rfl

theorem modifyBankMoney_ranks (g : Guild) (amount : ℕ) (add : Bool) :
    (g.modifyBankMoney amount add).ranks = g.ranks := by
  unfold modifyBankMoney
  repeat' split
  all_goals rfl

theorem apply_ranks {op : Op} (hop : op.onRanks = false) (ho : g.apply op = some g') :
    g'.ranks = g.ranks := by
  cases op with
  | addNewRank => cases hop
  | removeLowestRank => cases hop
  | setRankInfo => cases hop
  | addMember guid name inGuild exist rankId =>
    cases ho
    rcases addMember_cases g guid name inGuild exist rankId.toNat with ⟨-, h⟩ | ⟨-, h⟩ <;> rw [h]
  | deleteMember guid => exact deleteMember_ranks ho
  | changeMemberRank guid newRank =>
    cases ho
    unfold changeMemberRank
    split <;> rfl
  | setLeader player name =>
    cases ho
    unfold handleSetLeader
    repeat' split
    all_goals rfl
  | leaveMember player =>
    rcases handleLeaveMember_cases ho with rfl | hd
    · rfl
    · exact deleteMember_ranks hd
  | removeMember player name =>
    rcases handleRemoveMember_cases ho with rfl | ⟨m, hd⟩
    · rfl
    · exact deleteMember_ranks hd
  | updateMemberRank player name demote =>
    cases ho
    unfold handleUpdateMemberRank
    repeat' split
    all_goals rfl
  | depositMoney purse amount =>
    cases ho
    exact modifyBankMoney_ranks g _ true
  | withdrawMoney player purse amount repair =>
    cases ho
    cases hw : g.handleMemberWithdrawMoney player purse amount.toNat repair with
    | none => rfl
    | some r =>
      obtain ⟨m, -, -, heq⟩ := handleMemberWithdrawMoney_cases hw
      show r.1.ranks = g.ranks
      rw [heq, modifyBankMoney_ranks]
      rfl

/-- **An operation leaves good ranks.** -/
theorem apply_rights (h : g.RightsInv) {op : Op} (hk : g.KeepsMembers op) (hmask : g.MasksWell op)
    (ho : g.apply op = some g') : g'.RightsInv := by
  refine ⟨apply_order h.order hk ho, ?_⟩
  cases hop : op.onRanks with
  | false =>
    rw [apply_ranks hop ho]
    exact h.ranks
  | true =>
    cases op with
    | addNewRank player name =>
      cases ho
      rcases handleAddNewRank_cases h.order.ranks player name with heq | ⟨-, heq⟩
      · rw [heq]
        exact h.ranks
      · rw [heq]
        refine fun r hr => (List.mem_append.mp hr).elim (h.ranks r) fun hr => ?_
        have hmin := h.order.ranks.five_le
        have hmask : WellMasked (grRightGChatListen ||| grRightGChatSpeak) := by decide
        rw [List.mem_singleton.mp hr]
        refine ⟨hmask, fun h0 => ?_⟩
        change g.ranks.length = 0 at h0
        omega
    | removeLowestRank player =>
      cases ho
      rcases handleRemoveLowestRank_cases h.order.ranks player with ⟨-, heq⟩ | ⟨-, heq⟩
      · rw [heq]
        exact h.ranks
      · rw [heq]
        exact fun r hr => h.ranks r (List.dropLast_subset _ hr)
    | setRankInfo player rankId name rights money rs =>
      cases ho
      exact handleSetRankInfo_good h.ranks player _ name rights _ rs hmask
    | _ => cases hop

/-! ## Loading -/

/-- What the rights of a loaded guild rely on: masks that grant what they contain, of which that of
the guild master is completed by `RankInfo::LoadFromDB`. -/
structure RightsLoadable (g : Guild) : Prop extends g.Loadable where
  masks : ∀ r ∈ g.ranks, WellMasked r.rights
  loaded : ∀ r ∈ g.ranks, ∃ rights money,
    r.rights = (RankInfo.loadFromDB r.id r.name rights money).rights

/-- A mask that is completed has the right to withdraw. -/
theorem loadFromDB_good {r : RankInfo} (hmask : WellMasked r.rights) {rights : Rights} {money : ℕ}
    (hr : r.rights = (RankInfo.loadFromDB r.id r.name rights money).rights) : GoodRank r := by
  refine ⟨hmask, fun h0 => ?_⟩
  have hall : grRightAll &&& grRightWithdrawGold = grRightWithdrawGold := by decide
  rw [hr]
  unfold Contains RankInfo.loadFromDB
  rw [if_pos h0]
  show (rights ||| grRightAll) &&& grRightWithdrawGold = _
  rw [BitVec.and_comm, BitVec.and_or_distrib_left, BitVec.and_comm _ grRightAll, hall]
  refine (contains_twoPow_or rights 19).elim (fun hgold => ?_) fun hgold => ?_
  · exact (congrArg₂ _ ((BitVec.and_comm _ _).trans hgold) rfl).trans BitVec.or_self
  · exact (congrArg₂ _ ((BitVec.and_comm _ _).trans hgold) rfl).trans BitVec.zero_or

theorem validateRanks_good (h : g.RightsLoadable) : ∀ r ∈ g.validateRanks.ranks, GoodRank r := by
  have hdefault : ∀ r ∈ defaultRanks, GoodRank r := by decide
  unfold validateRanks
  split
  · rw [createDefaultGuildRanks_eq]
    exact hdefault
  · intro r hr
    obtain ⟨r₀, hr₀, rfl⟩ := List.mem_map.mp hr
    obtain ⟨rights, money, hloaded⟩ := h.loaded r₀ hr₀
    have hgood := loadFromDB_good (h.masks r₀ hr₀) hloaded
    exact ⟨hgood.mask, hgood.master⟩

theorem validate_rights (h : g.RightsLoadable) (allowMultiple : Bool)
    (hv : g.validate allowMultiple = some g') : g'.RightsInv := by
  refine ⟨validate_order h.toLoadable allowMultiple hv, ?_⟩
  obtain ⟨g₁, hg₁, rfl⟩ := Option.map_eq_some_iff.mp hv
  have hranks : g₁.ranks = g.validateRanks.ranks := by
    unfold validateLeader at hg₁
    split at hg₁
    · have hdeleted := deleteMember_ranks hg₁
      exact hdeleted
    · cases hg₁
      split <;> rfl
  split
  · rw [hranks]
    exact validateRanks_good h
  · show ∀ r ∈ g₁.ranks, GoodRank r
    rw [hranks]
    exact validateRanks_good h

/-! ## Every run -/

/-- What keeps the rights of a guild that is not disbanded. -/
def AdmitsRights : Option Guild → Op → Prop
  | some g, op => g.KeepsMembers op ∧ g.MasksWell op
  | none, _ => True

instance : ∀ s op, Decidable (AdmitsRights s op)
  | some g, op => inferInstanceAs (Decidable (g.KeepsMembers op ∧ g.MasksWell op))
  | none, _ => .isTrue trivial

/-- **No guild right without a grant.** In every guild that a run of operations leads to from a loaded
one, a right and a withdrawal are those of a rank whose mask contains them, where all masks grant what
they contain and the members stay in order. -/
theorem rights_granted_all_along {loaded : Guild} (h : loaded.RightsLoadable) (allowMultiple : Bool)
    {ops : List Op} (admitted : AllAlong step AdmitsRights (loaded.validate allowMultiple) ops) :
    GrantedIn (ops.foldl step (loaded.validate allowMultiple)) := by
  have keeps : ∀ (s : Option Guild) op, (∀ g, s = some g → g.RightsInv) → AdmitsRights s op →
      ∀ g', step s op = some g' → g'.RightsInv := fun s op hs ha g' hg' => by
    cases s with
    | none => cases hg'
    | some g => exact apply_rights (hs g rfl) ha.1 ha.2 hg'
  have init : ∀ g, loaded.validate allowMultiple = some g → g.RightsInv := fun g =>
    validate_rights h allowMultiple
  exact fun g hg => (foldl_keeps_of_allAlong keeps init admitted g hg).granted

/-- The leader lets initiates invite and withdraw gold; one is promoted and withdraws some. -/
def generousOps : List Op :=
  [.setRankInfo 1 4 "Initiate"
      (grRightInvite ||| grRightWithdrawRepair ||| grRightWithdrawGold) 100 [],
    .addMember 3 "Cid" false true 0xFF, .updateMemberRank 1 "Bob" false, .depositMoney 50 50,
    .withdrawMoney 3 0 20 false]

theorem guildOfTwo_rightsLoadable : guildOfTwo.RightsLoadable := by
  have hloaded : ∀ r ∈ defaultRanks,
      r.rights = (RankInfo.loadFromDB r.id r.name r.rights 0).rights := by decide
  exact ⟨⟨by decide, by decide, by decide⟩, by decide, fun r hr => ⟨r.rights, 0, hloaded r hr⟩⟩

theorem generous_run_grants_its_rights :
    GrantedIn (generousOps.foldl step (guildOfTwo.validate false)) :=
  rights_granted_all_along guildOfTwo_rightsLoadable false (by decide +kernel)

/-- The leader gives the initiates a mask of nothing, and they may invite. -/
theorem empty_mask_grants_everything :
    ¬ GrantedIn ([Op.setRankInfo 1 4 "Initiate" 0 0 []].foldl step (guildOfTwo.validate false)) := by
  intro h
  obtain ⟨m, r, hm, hr, hbits⟩ := (h _ rfl).rights 2 grRightInvite (by decide) (by decide +kernel)
  cases hm
  cases hr
  revert hbits
  decide

end Guild

end Sunstrider.Guilds
