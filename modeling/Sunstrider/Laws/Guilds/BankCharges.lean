import Sunstrider.Laws.Guilds.BankMoves
import Sunstrider.Laws.Guilds.Members

/-!
# Charges of the guild bank

What a member has taken out of the bank since the last `Guild::ResetTimes` is in his withdraw values.
`AllowanceInv` says that they stay within the limits of his rank, which the getters read as signed
numbers. All money that is handed out is charged (`AllowanceInv.withdrawMoney`), and so is every item
that a move takes out of a tab (`moveItems_charges`).
-/

namespace Sunstrider.Guilds

open Sunstrider.Items (Item)
open Sunstrider.Lib (toInt32 addU32 toInt32_eq addU32_eq find_replaceKey)
open Sunstrider.Player (maxMoneyAmount)

namespace Guild

variable {g g' : Guild} {player rankId tabId : ℕ}

/-! ## Charges -/

/-- What a member has been charged: of money for the last index, else of items of a tab. -/
def charged (g : Guild) (player tabId : ℕ) : ℕ :=
  ((g.getMember player).map fun m => m.bankWithdraw[tabId]?.getD 0).getD 0

/-- What a rank may take a day, as the getters read it. -/
def allowance (g : Guild) (rankId tabId : ℕ) : ℕ :=
  if tabId = guildBankMaxTabs then (g.getRankBankMoneyPerDay rankId).toNat
  else (g.getRankBankTabSlotsPerDay rankId tabId).toNat

/-- The ranks, the number of tabs and the rank of a member are those of another guild, and he has not
been charged more than his rank allows. -/
structure AllowanceInv (g₀ : Guild) (player rankId : ℕ) (g : Guild) : Prop where
  ranks : g.ranks = g₀.ranks
  tabs : g.bankTabs.length = g₀.bankTabs.length
  member : ∃ m, g.getMember player = some m ∧ m.rankId = rankId ∧
    m.bankWithdraw.length = guildBankMaxTabs + 1
  within : ∀ t ≤ guildBankMaxTabs, g.charged player t ≤ g₀.allowance rankId t

theorem toInt32_toNat_lt (a : ℕ) : (toInt32 a).toNat < 2 ^ 31 := by
  unfold toInt32
  split <;> omega

theorem toInt32_toNat_le (a : ℕ) : (toInt32 a).toNat ≤ a := by
  unfold toInt32
  split <;> omega

theorem allowance_lt (g : Guild) (rankId tabId : ℕ) : g.allowance rankId tabId < 2 ^ 31 := by
  have hrank : ∀ f : RankInfo → ℕ,
      (((g.getRankInfo rankId).map fun r => toInt32 (f r)).getD 0).toNat < 2 ^ 31 := by
    intro f
    cases g.getRankInfo rankId with
    | none => exact Nat.two_pow_pos 31
    | some r => exact toInt32_toNat_lt _
  unfold allowance getRankBankMoneyPerDay getRankBankTabSlotsPerDay
  split
  · exact hrank _
  · split
    · exact hrank _
    · decide

theorem getters_congr (hranks : g'.ranks = g.ranks)
    (htabs : g'.bankTabs.length = g.bankTabs.length) :
    g'.getRankInfo = g.getRankInfo ∧ g'.getPurchasedTabsSize = g.getPurchasedTabsSize := by
  refine ⟨?_, ?_⟩
  · funext rankId
    unfold getRankInfo getRanksSize
    rw [hranks]
  · unfold getPurchasedTabsSize
    rw [htabs]

variable {g₀ : Guild}

theorem AllowanceInv.slotsPerDay (h : AllowanceInv g₀ player rankId g) (tabId : ℕ) :
    g.getRankBankTabSlotsPerDay rankId tabId = g₀.getRankBankTabSlotsPerDay rankId tabId := by
  obtain ⟨hinfo, hsize⟩ := getters_congr h.ranks h.tabs
  unfold getRankBankTabSlotsPerDay
  rw [hinfo, hsize]

theorem AllowanceInv.moneyPerDay (h : AllowanceInv g₀ player rankId g) :
    g.getRankBankMoneyPerDay rankId = g₀.getRankBankMoneyPerDay rankId := by
  obtain ⟨hinfo, -⟩ := getters_congr h.ranks h.tabs
  unfold getRankBankMoneyPerDay
  rw [hinfo]

theorem getMember_writeMember (g : Guild) (m : Member) (guid : ℕ) :
    (g.writeMember m).getMember guid =
      if m.guid = guid then (g.getMember guid).map fun _ => m else g.getMember guid :=
  find_replaceKey Member.guid m g.members guid

variable {m : Member}

theorem AllowanceInv.getBankWithdrawValue (h : AllowanceInv g₀ player rankId g)
    (hrank : rankId ≠ grGuildmaster) (hm : g.getMember player = some m) {t : ℕ}
    (ht : t ≤ guildBankMaxTabs) : m.rankId = rankId ∧
      m.bankWithdraw.length = guildBankMaxTabs + 1 ∧
      m.bankWithdraw[t]?.getD 0 = g.charged player t ∧
      m.getBankWithdrawValue t = g.charged player t := by
  obtain ⟨m', hm', hrank', hlength⟩ := h.member
  obtain rfl := Option.some.inj (hm.symm.trans hm')
  have hcharged : m.bankWithdraw[t]?.getD 0 = g.charged player t := by
    unfold charged
    rw [hm]
    rfl
  refine ⟨hrank', hlength, hcharged, ?_⟩
  unfold Member.getBankWithdrawValue
  rw [if_neg (hrank'.symm ▸ hrank), hcharged]
  exact toInt32_eq ((h.within t ht).trans_lt (allowance_lt ..))

theorem AllowanceInv.charge (h : AllowanceInv g₀ player rankId g) (hrank : rankId ≠ grGuildmaster)
    (hm : g.getMember player = some m) {t amount : ℕ} (ht : t ≤ guildBankMaxTabs)
    (hle : g.charged player t + amount ≤ g₀.allowance rankId t) :
    AllowanceInv g₀ player rankId (g.writeMember (m.updateBankWithdrawValue t amount)) ∧
      ∀ t', (g.writeMember (m.updateBankWithdrawValue t amount)).charged player t' =
        g.charged player t' + if t' = t then amount else 0 := by
  obtain ⟨hmrank, hlength, hvalue, -⟩ := h.getBankWithdrawValue hrank hm ht
  have hguid : m.guid = player := (mem_of_getMember hm).2
  have hfound : (g.writeMember (m.updateBankWithdrawValue t amount)).getMember player =
      some (m.updateBankWithdrawValue t amount) := by
    have hsame : (m.updateBankWithdrawValue t amount).guid = player := hguid
    rw [getMember_writeMember, if_pos hsame, hm]
    rfl
  have hlt : t < m.bankWithdraw.length := by omega
  have hsmall := allowance_lt g₀ rankId t
  have hcharged : ∀ t', (g.writeMember (m.updateBankWithdrawValue t amount)).charged player t' =
      g.charged player t' + if t' = t then amount else 0 := by
    intro t'
    unfold charged at hvalue hle ⊢
    rw [hfound, hm]
    rw [hm] at hvalue hle
    simp only [Option.map_some, Option.getD_some] at hvalue hle ⊢
    show ((m.bankWithdraw.modify t (addU32 · amount))[t']?).getD 0 = _
    rw [List.getElem?_modify]
    by_cases heq : t' = t
    · subst heq
      rw [List.getElem?_eq_getElem hlt, Option.getD_some] at hle
      rw [List.getElem?_eq_getElem hlt, if_pos rfl]
      show (if t' = t' then addU32 m.bankWithdraw[t'] amount else _) = m.bankWithdraw[t'] + amount
      rw [if_pos rfl]
      exact addU32_eq (by omega)
    · rw [if_neg heq, Nat.add_zero]
      cases m.bankWithdraw[t']? with
      | none => rfl
      | some v => exact if_neg (Ne.symm heq)
  refine ⟨⟨h.ranks, h.tabs, ⟨_, hfound, hmrank, ?_⟩, fun t' ht' => ?_⟩, hcharged⟩
  · show (m.bankWithdraw.modify t _).length = _
    rw [List.length_modify, hlength]
  · rw [hcharged]
    have hbefore := h.within t' ht'
    split
    · next heq =>
      rw [heq]
      exact hle
    · exact hbefore

theorem charged_congr (h : g'.members = g.members) (player : ℕ) :
    g'.charged player = g.charged player := by
  funext t
  unfold charged getMember
  rw [h]

theorem AllowanceInv.congr (h : AllowanceInv g₀ player rankId g) (hmembers : g'.members = g.members)
    (hranks : g'.ranks = g.ranks) (htabs : g'.bankTabs.length = g.bankTabs.length) :
    AllowanceInv g₀ player rankId g' := by
  refine ⟨hranks.trans h.ranks, htabs.trans h.tabs, ?_, ?_⟩
  · unfold getMember
    rw [hmembers]
    exact h.member
  · rw [charged_congr hmembers]
    exact h.within

/-- A guild with the same members, ranks, money and number of tabs. -/
structure SameBooks (g g' : Guild) : Prop where
  members : g'.members = g.members
  ranks : g'.ranks = g.ranks
  money : g'.bankMoney = g.bankMoney
  tabs : g'.bankTabs.length = g.bankTabs.length

theorem SameBooks.refl (g : Guild) : g.SameBooks g := ⟨rfl, rfl, rfl, rfl⟩

theorem SameBooks.trans {g'' : Guild} (h : g.SameBooks g') (h' : g'.SameBooks g'') :
    g.SameBooks g'' :=
  ⟨h'.members.trans h.members, h'.ranks.trans h.ranks, h'.money.trans h.money,
    h'.tabs.trans h.tabs⟩

theorem AllowanceInv.sameBooks (h : AllowanceInv g₀ player rankId g) (hsame : g.SameBooks g') :
    AllowanceInv g₀ player rankId g' :=
  h.congr hsame.members hsame.ranks hsame.tabs

theorem AllowanceInv.chargeOther (h : AllowanceInv g₀ player rankId g) (hm : m.guid ≠ player) :
    AllowanceInv g₀ player rankId (g.writeMember m) ∧
      ∀ t, (g.writeMember m).charged player t = g.charged player t := by
  have hfound : (g.writeMember m).getMember player = g.getMember player := by
    rw [getMember_writeMember, if_neg hm]
  have hcharged : ∀ t, (g.writeMember m).charged player t = g.charged player t := by
    intro t
    unfold charged
    rw [hfound]
  refine ⟨⟨h.ranks, h.tabs, ?_, fun t ht => ?_⟩, hcharged⟩
  · rw [hfound]
    exact h.member
  · rw [hcharged]
    exact h.within t ht

theorem allowance_tab {tabId : ℕ} (htab : tabId < guildBankMaxTabs) (g : Guild) (rankId : ℕ) :
    g.allowance rankId tabId = (g.getRankBankTabSlotsPerDay rankId tabId).toNat :=
  if_neg htab.ne

theorem allowance_money (g : Guild) (rankId : ℕ) :
    g.allowance rankId guildBankMaxTabs = (g.getRankBankMoneyPerDay rankId).toNat := if_pos rfl

/-- **What a removal from a tab charges**: one item, while the allowance of the member lasts. -/
theorem AllowanceInv.updateMemberWithdrawSlots (h : AllowanceInv g₀ player rankId g)
    (hrank : rankId ≠ grGuildmaster) (remover : ℕ) {tabId : ℕ} (htab : tabId < guildBankMaxTabs) :
    AllowanceInv g₀ player rankId (g.updateMemberWithdrawSlots remover tabId) ∧
      ∀ t, (g.updateMemberWithdrawSlots remover tabId).charged player t = g.charged player t +
        if remover = player ∧ t = tabId ∧ g.charged player tabId < g₀.allowance rankId tabId then 1
        else 0 := by
  unfold Guild.updateMemberWithdrawSlots
  cases hm : g.getMember remover with
  | none =>
    have hme : remover ≠ player := by
      rintro rfl
      obtain ⟨m, hm', -⟩ := h.member
      rw [hm] at hm'
      cases hm'
    refine ⟨h, fun t => ?_⟩
    rw [if_neg fun hc => hme hc.1]
    rfl
  | some m =>
    dsimp only
    by_cases hme : remover = player
    · subst hme
      obtain ⟨hmrank, -, -, hvalue⟩ := h.getBankWithdrawValue hrank hm htab.le
      have hcond : (m.rankId ≠ grGuildmaster && m.getBankWithdrawValue tabId <
          g.getRankBankTabSlotsPerDay m.rankId tabId) =
          decide (g.charged remover tabId < g₀.allowance rankId tabId) := by
        rw [allowance_tab htab, hmrank, hvalue, h.slotsPerDay]
        simp only [ne_eq, hrank, not_false_eq_true, decide_true, Bool.true_and]
        exact decide_eq_decide.mpr (by omega)
      rw [hcond]
      by_cases hlt : g.charged remover tabId < g₀.allowance rankId tabId
      · have hle : g.charged remover tabId + 1 ≤ g₀.allowance rankId tabId := hlt
        obtain ⟨hinv, hcharged⟩ := h.charge hrank hm htab.le hle
        rw [if_pos (decide_eq_true hlt)]
        refine ⟨hinv, fun t => ?_⟩
        rw [hcharged]
        simp [hlt]
      · rw [if_neg (by simpa using hlt)]
        refine ⟨h, fun t => ?_⟩
        rw [if_neg fun hc => hlt hc.2.2, Nat.add_zero]
    · have hguid : m.guid ≠ player := (mem_of_getMember hm).2 ▸ hme
      have hother : ∀ t, (if remover = player ∧ t = tabId ∧
          g.charged player tabId < g₀.allowance rankId tabId then 1 else 0) = 0 :=
        fun t => if_neg fun hc => hme hc.1
      simp only [hother, Nat.add_zero]
      split
      · exact h.chargeOther hguid
      · exact ⟨h, fun _ => rfl⟩

/-- A member with items left for a tab has not been charged all that his rank allows. -/
theorem AllowanceInv.lt_of_remaining (h : AllowanceInv g₀ player rankId g)
    (hrank : rankId ≠ grGuildmaster) (hm : g.getMember player = some m) {tabId : ℕ}
    (htab : tabId < guildBankMaxTabs) (hleft : g.getMemberRemainingSlots m tabId ≠ 0) :
    g.charged player tabId < g₀.allowance rankId tabId := by
  obtain ⟨hmrank, -, -, hvalue⟩ := h.getBankWithdrawValue hrank hm htab.le
  rw [allowance_tab htab]
  unfold getMemberRemainingSlots at hleft
  rw [hmrank, if_neg hrank, hvalue, h.slotsPerDay] at hleft
  split at hleft
  · dsimp only at hleft
    split at hleft
    · omega
    · exact absurd rfl hleft
  · exact absurd rfl hleft

/-- **What a withdrawal charges**: all money that is handed out. -/
theorem AllowanceInv.withdrawMoney (h : AllowanceInv g₀ player rankId g)
    (hrank : rankId ≠ grGuildmaster) {taker purse amount : ℕ} {repair : Bool} {purse' : ℕ}
    (hw : g.handleMemberWithdrawMoney taker purse amount repair = some (g', purse')) :
    AllowanceInv g₀ player rankId g' ∧ ∀ t, g'.charged player t = g.charged player t +
      if taker = player ∧ t = guildBankMaxTabs then min amount maxMoneyAmount else 0 := by
  unfold handleMemberWithdrawMoney at hw
  dsimp only at hw
  split at hw
  · cases hw
  split at hw
  · cases hw
  next m hm =>
    split at hw
    · cases hw
    next hremaining =>
      split at hw
      · cases hw
      · obtain ⟨rfl, -⟩ := Prod.mk.inj (Option.some.inj hw)
        have hsame : ∀ g : Guild, (g.modifyBankMoney (min amount maxMoneyAmount) false).members =
            g.members ∧ (g.modifyBankMoney (min amount maxMoneyAmount) false).ranks = g.ranks ∧
            (g.modifyBankMoney (min amount maxMoneyAmount) false).bankTabs = g.bankTabs := by
          intro g
          unfold modifyBankMoney
          rw [if_neg Bool.false_ne_true]
          split <;> exact ⟨rfl, rfl, rfl⟩
        have hkept : ∀ g, AllowanceInv g₀ player rankId g → AllowanceInv g₀ player rankId
            (g.modifyBankMoney (min amount maxMoneyAmount) false) := fun g hg =>
          hg.congr (hsame g).1 (hsame g).2.1 (congrArg List.length (hsame g).2.2)
        by_cases hme : taker = player
        · subst hme
          obtain ⟨hmrank, -, -, hvalue⟩ := h.getBankWithdrawValue hrank hm le_rfl
          have hle : g.charged taker guildBankMaxTabs + min amount maxMoneyAmount ≤
              g₀.allowance rankId guildBankMaxTabs := by
            have hwithin := h.within guildBankMaxTabs le_rfl
            have hsmall := allowance_lt g₀ rankId guildBankMaxTabs
            rw [allowance_money] at hwithin hsmall ⊢
            unfold getMemberRemainingMoney at hremaining
            rw [hmrank, if_neg hrank, hvalue, h.moneyPerDay] at hremaining
            dsimp only at hremaining
            split at hremaining
            · split at hremaining <;> omega
            · omega
          obtain ⟨hinv, hcharged⟩ := h.charge hrank hm le_rfl hle
          refine ⟨hkept _ hinv, fun t => ?_⟩
          rw [charged_congr (hsame _).1, hcharged]
          simp
        · have hguid : m.guid ≠ player := (mem_of_getMember hm).2 ▸ hme
          have hother : (m.updateBankWithdrawValue guildBankMaxTabs
              (min amount maxMoneyAmount)).guid ≠ player := hguid
          obtain ⟨hinv, hcharged⟩ := h.chargeOther hother
          refine ⟨hkept _ hinv, fun t => ?_⟩
          rw [charged_congr (hsame _).1, hcharged, if_neg fun hc => hme hc.1, Nat.add_zero]

end Guild

namespace BankWorld

variable {E : BankEnv} {w w' : BankWorld} {player : ℕ} {src dest : MoveItemData}

/-! ## What a move leaves -/

/-- **What a move does**: nothing, or a removal from the source by right and stores, or removals from
both sides by right and stores. -/
theorem moveItems_cases (E : BankEnv) (w : BankWorld) (player : ℕ) (src dest : MoveItemData)
    (splitedAmount : ℕ) :
    (∃ n, w.moveItems E player src dest splitedAmount = { w with nextGuid := n }) ∨
    src.hasWithdrawRights w.guild player dest = true ∧
      ((∃ n item vec split, w.moveItems E player src dest splitedAmount =
        storeItem E item vec ({ w with nextGuid := n }.removeItem player src dest split)) ∨
      dest.hasWithdrawRights w.guild player src = true ∧
        ∃ a b vec vec', w.moveItems E player src dest splitedAmount =
          storeItem E b vec' (storeItem E a vec
            ((w.removeItem player src dest 0).removeItem player dest src 0))) := by
  have hnothing : ∃ n, w = { w with nextGuid := n } := ⟨w.nextGuid, rfl⟩
  unfold moveItems
  cases w.initItem src with
  | none => exact .inl hnothing
  | some item =>
    dsimp only
    cases checkItem item splitedAmount with
    | none => exact .inl hnothing
    | some split =>
      dsimp only
      split
      · exact .inl hnothing
      split
      · exact .inl hnothing
      next hwithdraw =>
        have hright : src.hasWithdrawRights w.guild player dest = true := by simpa using hwithdraw
        split
        · unfold cloneItem
          split
          next h =>
            split at h <;> cases h
            exact .inl hnothing
          next w₀ clone h =>
            split at h <;> cases h
            unfold doItemsMove
            cases canStore E _ dest _ _ with
            | none => exact .inl ⟨_, rfl⟩
            | some vec => exact .inr ⟨hright, .inl ⟨_, _, vec, split, rfl⟩⟩
        · unfold doItemsMove
          cases w.canStore E dest item _ with
          | some vec => exact .inr ⟨hright, .inl ⟨w.nextGuid, item, vec, 0, rfl⟩⟩
          | none =>
            dsimp only
            cases w.initItem dest with
            | none => exact .inl hnothing
            | some destItem =>
              dsimp only
              split
              · exact .inl hnothing
              split
              · exact .inl hnothing
              next hwithdraw' =>
                have hright' : dest.hasWithdrawRights w.guild player src = true := by
                  simpa using hwithdraw'
                cases w.canStore E dest item _ with
                | none => exact .inl hnothing
                | some vec =>
                  dsimp only
                  cases w.canStore E src destItem true with
                  | none => exact .inl hnothing
                  | some vec' =>
                    exact .inr ⟨hright, .inr ⟨hright', item, destItem, vec, vec', rfl⟩⟩

theorem setItem_books (w : BankWorld) (l : Location) (o : Option Item) :
    w.guild.SameBooks (w.setItem l o).guild := by
  cases l with
  | inl p => exact ⟨rfl, rfl, rfl, List.length_modify ..⟩
  | inr p => exact .refl _

theorem itemAt_setItem_ne {l l' : Location} (hne : l' ≠ l) (o : Option Item) :
    (w.setItem l o).itemAt l' = w.itemAt l' := by
  by_cases hplace : w.HasPlace l
  · rw [itemAt_setItem hplace, Function.update_of_ne hne]
  · cases l with
    | inr p => exact absurd trivial hplace
    | inl p =>
      have hsame : w.guild.bankTabs.modify p.1 (fun t =>
          { t with items := Function.update t.items p.2 o }) = w.guild.bankTabs :=
        List.modify_eq_self (not_lt.mp hplace)
      cases l' with
      | inr p' => rfl
      | inl p' =>
        show ((w.guild.bankTabs.modify p.1 _)[p'.1.val]?).bind _ = _
        rw [hsame]
        rfl

/-- The item object is still there, and not fewer of it. -/
def Stays (a : Item) (o : Option Item) : Prop := ∃ b, o = some b ∧ b.guid = a.guid ∧ a.count ≤ b.count

theorem storeItemAt_frame (E : BankEnv) (w : BankWorld) (item : Item) (p : ItemPosCount)
    (clone : Bool) : w.guild.SameBooks (w.storeItemAt E item p clone).guild ∧
      ∀ l a, w.itemAt l = some a → Stays a ((w.storeItemAt E item p clone).itemAt l) := by
  have hput : ∀ (w' : BankWorld) (o : Option Item), w'.guild = w.guild → w'.itemAt = w.itemAt →
      w.itemAt p.pos = none → w.guild.SameBooks (w'.setItem p.pos o).guild ∧
        ∀ l a, w.itemAt l = some a → Stays a ((w'.setItem p.pos o).itemAt l) := by
    intro w' o hguild hitems hnone
    refine ⟨hguild ▸ setItem_books w' p.pos o, fun l a ha => ⟨a, ?_, rfl, le_rfl⟩⟩
    have hne : l ≠ p.pos := by
      rintro rfl
      rw [hnone] at ha
      cases ha
    rw [itemAt_setItem_ne hne, hitems, ha]
  unfold storeItemAt
  cases hat : w.itemAt p.pos with
  | some dest =>
    refine ⟨setItem_books .., fun l a ha => ?_⟩
    by_cases hl : l = p.pos
    · subst hl
      obtain rfl := Option.some.inj (ha.symm.trans hat)
      rw [itemAt_setItem (hasPlace_of_itemAt hat), Function.update_self]
      exact ⟨_, rfl, rfl, Nat.le_add_right _ _⟩
    · exact ⟨a, (itemAt_setItem_ne hl _).trans ha, rfl, le_rfl⟩
  | none =>
    cases clone with
    | false => exact hput w _ rfl rfl hat
    | true =>
      dsimp only
      unfold cloneItem
      by_cases hsome : p.count.toNat < 1
      · rw [if_pos rfl, if_pos hsome]
        exact ⟨.refl _, fun l a ha => ⟨a, ha, rfl, le_rfl⟩⟩
      · rw [if_pos rfl, if_neg hsome]
        exact hput { w with nextGuid := w.nextGuid + 1 } _ rfl (itemAt_withNext w _) hat

/-- Storing takes nothing out of any slot. -/
theorem storeItem_frame (E : BankEnv) (item : Item) (vec : List ItemPosCount) (w : BankWorld) :
    w.guild.SameBooks (storeItem E item vec w).guild ∧
      ∀ l a, w.itemAt l = some a → Stays a ((storeItem E item vec w).itemAt l) := by
  induction vec generalizing w with
  | nil => exact ⟨.refl _, fun l a ha => ⟨a, ha, rfl, le_rfl⟩⟩
  | cons p vec ih =>
    obtain ⟨hbooks, hstays⟩ := storeItemAt_frame E w item p !vec.isEmpty
    obtain ⟨hbooks', hstays'⟩ := ih (w.storeItemAt E item p !vec.isEmpty)
    rw [storeItem_cons]
    refine ⟨hbooks.trans hbooks', fun l a ha => ?_⟩
    obtain ⟨b, hb, hguid, hle⟩ := hstays l a ha
    obtain ⟨c, hc, hguid', hle'⟩ := hstays' l b hb
    exact ⟨c, hc, hguid'.trans hguid, hle.trans hle'⟩

theorem removeItem_eq (w : BankWorld) (player : ℕ) (self other : MoveItemData) (split : ℕ) :
    ∃ w₁, (w₁ = w ∨ ∃ l o, self.location = some l ∧ w₁ = w.setItem l o) ∧
      w.removeItem player self other split =
        match self with
        | .player _ => w₁
        | .bank tab _ =>
          if self.sameTab other then w₁
          else { w₁ with guild := w₁.guild.updateMemberWithdrawSlots player tab } := by
  unfold removeItem
  refine ⟨_, ?_, rfl⟩
  cases hl : self.location with
  | none => exact .inl rfl
  | some l =>
    refine .inr ⟨l, if split ≠ 0 then (w.itemAt l).map fun item =>
      { item with count := item.count - split } else none, rfl, ?_⟩
    dsimp only
    split <;> rfl

variable {other self : MoveItemData}

/-- A removal from one side leaves the other slots. -/
theorem removeItem_frame {split : ℕ} {l : Location} (hl : self.location ≠ some l) :
    (w.removeItem player self other split).itemAt l = w.itemAt l := by
  obtain ⟨w₁, hw₁, heq⟩ := removeItem_eq w player self other split
  have hitem : w₁.itemAt l = w.itemAt l := by
    rcases hw₁ with rfl | ⟨l', o, hl', rfl⟩
    · rfl
    · have hne : l ≠ l' := by
        rintro rfl
        exact hl hl'
      exact itemAt_setItem_ne hne o
  rw [heq]
  cases self with
  | player pos => exact hitem
  | bank tab slot =>
    dsimp only
    split
    · exact hitem
    · rw [itemAt_withGuild (updateMemberWithdrawSlots_tabs ..)]
      exact hitem

/-! ## What a move charges -/

section Charges

variable {g₀ : Guild} {rankId : ℕ}

/-- The side is a tab, and the other side is not of it. -/
def leavesTab (self other : MoveItemData) (tab : Fin guildBankMaxTabs) : Bool :=
  match self with
  | .player _ => false
  | .bank tab' _ => tab' = tab && !self.sameTab other

/-- **What a removal charges**: one item for a tab that it leaves, while the allowance lasts. -/
theorem removeItem_charges (h : Guild.AllowanceInv g₀ player rankId w.guild)
    (hrank : rankId ≠ grGuildmaster) (remover : ℕ) (self other : MoveItemData) (split : ℕ) :
    Guild.AllowanceInv g₀ player rankId (w.removeItem remover self other split).guild ∧
      (∀ t, w.guild.charged player t ≤
        (w.removeItem remover self other split).guild.charged player t) ∧
      ∀ tab : Fin guildBankMaxTabs, (w.removeItem remover self other split).guild.charged player tab =
        w.guild.charged player tab + if remover = player ∧ leavesTab self other tab = true ∧
          w.guild.charged player tab < g₀.allowance rankId tab then 1 else 0 := by
  obtain ⟨w₁, hw₁, heq⟩ := removeItem_eq w remover self other split
  have hbooks : w.guild.SameBooks w₁.guild := by
    rcases hw₁ with rfl | ⟨l, o, -, rfl⟩
    · exact .refl _
    · exact setItem_books ..
  have hinv := h.sameBooks hbooks
  have hcharged := Guild.charged_congr hbooks.members player
  have hfree : (∀ tab, leavesTab self other tab = false) →
      Guild.AllowanceInv g₀ player rankId w₁.guild ∧
      (∀ t, w.guild.charged player t ≤ w₁.guild.charged player t) ∧
      ∀ tab : Fin guildBankMaxTabs, w₁.guild.charged player tab = w.guild.charged player tab +
        if remover = player ∧ leavesTab self other tab = true ∧
          w.guild.charged player tab < g₀.allowance rankId tab then 1 else 0 := by
    intro hleaves
    refine ⟨hinv, fun t => by rw [hcharged], fun tab => ?_⟩
    rw [hcharged, if_neg fun hc => by rw [hleaves] at hc; exact Bool.false_ne_true hc.2.1,
      Nat.add_zero]
  rw [heq]
  cases self with
  | player pos => exact hfree fun _ => rfl
  | bank tab' slot =>
    dsimp only
    split
    next hsame => exact hfree fun tab => by simp [leavesTab, hsame]
    next hother =>
      obtain ⟨hinv', hcharged'⟩ := hinv.updateMemberWithdrawSlots hrank remover tab'.isLt
      rw [hcharged] at hcharged'
      refine ⟨hinv', fun t => ?_, fun tab => ?_⟩
      · rw [hcharged']
        exact Nat.le_add_right _ _
      · have hleaves : leavesTab (.bank tab' slot) other tab = decide (tab' = tab) := by
          simp [leavesTab, hother]
        rw [hcharged', hleaves]
        by_cases htab : tab' = tab
        · subst htab
          simp
        · rw [if_neg fun hc => htab (Fin.ext hc.2.1.symm), if_neg fun hc => htab (by simpa using hc.2.1)]

variable {tab : Fin guildBankMaxTabs}

/-- Who may take an item out of a tab has an allowance left. -/
theorem lt_of_hasWithdrawRights (h : Guild.AllowanceInv g₀ player rankId w.guild)
    (hrank : rankId ≠ grGuildmaster) (hright : self.hasWithdrawRights w.guild player other = true)
    (hleaves : leavesTab self other tab = true) :
    w.guild.charged player tab < g₀.allowance rankId tab := by
  cases self with
  | player pos => cases hleaves
  | bank tab' slot =>
    simp only [leavesTab, Bool.and_eq_true, decide_eq_true_eq, Bool.not_eq_true'] at hleaves
    obtain ⟨rfl, hother⟩ := hleaves
    obtain ⟨m, hm, -⟩ := h.member
    simp only [MoveItemData.hasWithdrawRights, hother, Bool.false_or, decide_eq_true_eq, hm,
      Option.map_some, Option.getD_some] at hright
    exact h.lt_of_remaining hrank hm tab'.isLt hright

/-- The item object has left its slot, or there are fewer of it. -/
def lessened : Option Item → Option Item → Bool
  | none, _ => false
  | some _, none => true
  | some a, some b => b.guid ≠ a.guid || b.count < a.count

/-- Something has been taken out of a slot of a tab. -/
def tookFrom (w w' : BankWorld) (tab : Fin guildBankMaxTabs) : Bool :=
  (List.finRange guildBankMaxSlots).any fun slot =>
    lessened (w.itemAt (.inl (tab, slot))) (w'.itemAt (.inl (tab, slot)))

theorem tookFrom_spec (h : tookFrom w w' tab = true) :
    ∃ slot a, w.itemAt (.inl (tab, slot)) = some a ∧ ¬ Stays a (w'.itemAt (.inl (tab, slot))) := by
  obtain ⟨slot, -, hslot⟩ := List.any_eq_true.mp h
  cases ha : w.itemAt (.inl (tab, slot)) with
  | none =>
    rw [ha] at hslot
    cases hslot
  | some a =>
    refine ⟨slot, a, ha, ?_⟩
    rintro ⟨b, hb, hguid, hle⟩
    rw [ha, hb] at hslot
    simp only [lessened, hguid, ne_eq, not_true_eq_false, decide_false, Bool.false_or,
      decide_eq_true_eq] at hslot
    omega

theorem tookFrom_self (w : BankWorld) (tab : Fin guildBankMaxTabs) : tookFrom w w tab = false := by
  by_contra h
  obtain ⟨slot, a, ha, hstays⟩ := tookFrom_spec (Bool.eq_true_of_not_eq_false h)
  exact hstays ⟨a, ha, rfl, le_rfl⟩

theorem leavesTab_of_location {slot : Fin guildBankMaxSlots}
    (hl : self.location = some (.inl (tab, slot))) (hother : self.sameTab other = false) :
    leavesTab self other tab = true := by
  cases self with
  | player pos => cases hl
  | bank tab' slot' =>
    obtain ⟨slot', -, heq⟩ := Option.map_eq_some_iff.mp hl
    cases heq
    simp [leavesTab, hother]

theorem sameTab_comm (src dest : MoveItemData) : src.sameTab dest = dest.sameTab src := by
  cases src <;> cases dest <;> simp [MoveItemData.sameTab, eq_comm]

/-- **What a move charges**: an item for every tab that it takes an item out of. -/
theorem moveItems_charges (h : Guild.AllowanceInv g₀ player rankId w.guild)
    (hrank : rankId ≠ grGuildmaster) (mover : ℕ) (src dest : MoveItemData) (splitedAmount : ℕ) :
    Guild.AllowanceInv g₀ player rankId (w.moveItems E mover src dest splitedAmount).guild ∧
      (∀ t, w.guild.charged player t ≤
        (w.moveItems E mover src dest splitedAmount).guild.charged player t) ∧
      ∀ tab : Fin guildBankMaxTabs, mover = player → src.sameTab dest = false →
        tookFrom w (w.moveItems E mover src dest splitedAmount) tab = true →
        w.guild.charged player tab + 1 ≤
          (w.moveItems E mover src dest splitedAmount).guild.charged player tab := by
  rcases moveItems_cases E w mover src dest splitedAmount with ⟨n, heq⟩ |
    ⟨hright, ⟨n, item, vec, split, heq⟩ | ⟨hright', a, b, vec, vec', heq⟩⟩ <;> rw [heq]
  · refine ⟨h, fun t => le_rfl, fun tab _ _ htook => ?_⟩
    obtain ⟨slot, a, ha, hstays⟩ := tookFrom_spec htook
    rw [itemAt_withNext] at hstays
    exact absurd ⟨a, ha, rfl, le_rfl⟩ hstays
  · -- one stack has been removed, from the source
    have h₀ : Guild.AllowanceInv g₀ player rankId ({ w with nextGuid := n } : BankWorld).guild := h
    obtain ⟨hinv, hmono, hcharge⟩ := removeItem_charges h₀ hrank mover src dest split
    obtain ⟨hbooks, hstored⟩ := storeItem_frame E item vec
      ({ w with nextGuid := n }.removeItem mover src dest split)
    have hcharged := Guild.charged_congr hbooks.members player
    refine ⟨hinv.sameBooks hbooks, fun t => hcharged ▸ hmono t, fun tab hme hother htook => ?_⟩
    obtain ⟨slot, a, ha, hstays⟩ := tookFrom_spec htook
    have hl : src.location = some (.inl (tab, slot)) := by
      by_contra hne
      refine hstays (hstored _ a ?_)
      rw [removeItem_frame hne, itemAt_withNext, ha]
    have hleaves := leavesTab_of_location hl hother
    have hlt := lt_of_hasWithdrawRights h hrank (hme ▸ hright) hleaves
    rw [hcharged, hcharge, if_pos ⟨hme, hleaves, hlt⟩]
  · -- the items of both sides have been removed
    obtain ⟨hinv₁, hmono₁, hcharge₁⟩ := removeItem_charges h hrank mover src dest 0
    obtain ⟨hinv₂, hmono₂, hcharge₂⟩ := removeItem_charges hinv₁ hrank mover dest src 0
    obtain ⟨hbooks₃, hstored₃⟩ := storeItem_frame E a vec
      ((w.removeItem mover src dest 0).removeItem mover dest src 0)
    obtain ⟨hbooks₄, hstored₄⟩ := storeItem_frame E b vec' (storeItem E a vec
      ((w.removeItem mover src dest 0).removeItem mover dest src 0))
    have hbooks := hbooks₃.trans hbooks₄
    have hcharged := Guild.charged_congr hbooks.members player
    refine ⟨hinv₂.sameBooks hbooks, fun t => hcharged ▸ (hmono₁ t).trans (hmono₂ t),
      fun tab hme hother htook => ?_⟩
    obtain ⟨slot, c, hc, hstays⟩ := tookFrom_spec htook
    have hother' : dest.sameTab src = false := sameTab_comm src dest ▸ hother
    rw [hcharged]
    by_cases hl : src.location = some (.inl (tab, slot))
    · have hleaves := leavesTab_of_location hl hother
      have hlt := lt_of_hasWithdrawRights h hrank (hme ▸ hright) hleaves
      have hfirst := hcharge₁ tab
      rw [if_pos ⟨hme, hleaves, hlt⟩] at hfirst
      exact hfirst.symm.le.trans (hmono₂ tab)
    · have hl' : dest.location = some (.inl (tab, slot)) := by
        by_contra hne
        obtain ⟨d, hd, hguid, hle⟩ := hstored₃ (.inl (tab, slot)) c
          (by rw [removeItem_frame hne, removeItem_frame hl, hc])
        obtain ⟨e, he, hguid', hle'⟩ := hstored₄ _ d hd
        exact hstays ⟨e, he, hguid'.trans hguid, hle.trans hle'⟩
      have hleaves := leavesTab_of_location hl' hother'
      have hlt := lt_of_hasWithdrawRights h hrank (hme ▸ hright') hleaves
      by_cases hcharged₁ : leavesTab src dest tab = true
      · have hlt' := lt_of_hasWithdrawRights h hrank (hme ▸ hright) hcharged₁
        have hfirst := hcharge₁ tab
        rw [if_pos ⟨hme, hcharged₁, hlt'⟩] at hfirst
        exact hfirst.symm.le.trans (hmono₂ tab)
      · -- the first removal was not from this tab
        have hfirst := hcharge₁ tab
        rw [if_neg fun hc => hcharged₁ hc.2.1, Nat.add_zero] at hfirst
        rw [hcharge₂, hfirst, if_pos ⟨hme, hleaves, hlt⟩]

end Charges

theorem moveItems_guild_keeps {P : Guild → Prop} (hbooks : ∀ g g', P g → g.SameBooks g' → P g')
    (hcharge : ∀ g tab, P g → P (g.updateMemberWithdrawSlots player tab)) (h : P w.guild)
    (splitedAmount : ℕ) : P (w.moveItems E player src dest splitedAmount).guild := by
  have hremove : ∀ (w : BankWorld) self other split, P w.guild →
      P (w.removeItem player self other split).guild := by
    intro w self other split h
    obtain ⟨w₁, hw₁, heq⟩ := removeItem_eq w player self other split
    have h₁ : P w₁.guild := by
      rcases hw₁ with rfl | ⟨l, o, -, rfl⟩
      · exact h
      · exact hbooks _ _ h (setItem_books ..)
    rw [heq]
    cases self with
    | player pos => exact h₁
    | bank tab slot =>
      dsimp only
      split
      · exact h₁
      · exact hcharge _ tab h₁
  have hstore : ∀ (w : BankWorld) item vec, P w.guild → P (storeItem E item vec w).guild :=
    fun w item vec h => hbooks _ _ h (storeItem_frame E item vec w).1
  rcases moveItems_cases E w player src dest splitedAmount with ⟨n, heq⟩ |
    ⟨-, ⟨n, item, vec, split, heq⟩ | ⟨-, a, b, vec, vec', heq⟩⟩ <;> rw [heq]
  · exact h
  · exact hstore _ _ _ (hremove _ _ _ _ h)
  · exact hstore _ _ _ (hstore _ _ _ (hremove _ _ _ _ (hremove _ _ _ _ h)))

end BankWorld

end Sunstrider.Guilds
