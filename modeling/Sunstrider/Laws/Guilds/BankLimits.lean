import Sunstrider.Lib.Run
import Sunstrider.Laws.Guilds.BankCharges

/-!
# Limits of the guild bank

What a member takes out of the bank in a run of requests after `Guild::ResetTimes` is within the limits
of his rank (`daily_limits_hold`). The limits are signed to the getters: one from `2 ^ 31` on, among
them the unlimited one, allows nothing to a member who is not a guild master. When the server calls `ResetTimes` is left open.
-/

namespace Sunstrider.Guilds

open Sunstrider.Items (Item)
open Sunstrider.Lib (AllAlong allAlong_of_forall usedAlong usedAlong_le foldl_keeps)
open Sunstrider.Player (maxMoneyAmount)

namespace BankWorld

variable {E : BankEnv} {w w' : BankWorld} {player : ℕ} {src dest : MoveItemData}

/-! ## Requests -/

/-- The player who asks to move an item between different tabs, or between a tab and an inventory. -/
def Op.mover : Op → Option ℕ
  | .swapItems player _ tabId _ destTabId _ _ => if tabId = destTabId then none else some player
  | .swapItemsWithInventory player .. => some player
  | _ => none

/-- The money that the bank hands out. -/
def handedOut (w : BankWorld) : Op → ℕ
  | .withdrawMoney player purse amount repair =>
    if (w.guild.handleMemberWithdrawMoney player purse amount.toNat repair).isSome then
      min amount.toNat maxMoneyAmount
    else 0
  | _ => 0

/-- The money that a player takes out of the bank. -/
def moneyTaken (player : ℕ) (w : BankWorld) (op : Op) : ℕ :=
  match op with
  | .withdrawMoney taker .. => if taker = player then w.handedOut op else 0
  | _ => 0

/-- Whether a player takes an item out of a tab, to another tab or to his inventory. -/
def itemsTaken (E : BankEnv) (player : ℕ) (tab : Fin guildBankMaxTabs) (w : BankWorld) (op : Op) :
    ℕ :=
  if op.mover = some player ∧ tookFrom w (w.step E op) tab = true then 1 else 0

/-- What the step of a request is, where it is no move that is refused. -/
inductive StepCases (E : BankEnv) (w : BankWorld) (op : Op) : Prop
  | nothing (hstep : (w.step E op).guild = w.guild)
      (htook : ∀ tab, tookFrom w (w.step E op) tab = false) (hmoney : w.handedOut op = 0)
  | move (player : ℕ) (src dest : MoveItemData) (inventory : InventoryPos → Option Item) (split : ℕ)
      (hstep : w.step E op = { w with inventory := inventory }.moveItems E player src dest split)
      (hmover : ∀ mover, op.mover = some mover → mover = player ∧ src.sameTab dest = false)
      (hmoney : w.handedOut op = 0)
  | deposit (purse : ℕ) (amount : UInt32) (hop : op = .depositMoney purse amount)
  | withdraw (player purse : ℕ) (amount : UInt32) (repair : Bool) (g : Guild) (purse' : ℕ)
      (hop : op = .withdrawMoney player purse amount repair)
      (hw : w.guild.handleMemberWithdrawMoney player purse amount.toNat repair = some (g, purse'))

theorem bankSlot_some {tabId slotId : ℕ} {side : MoveItemData}
    (h : w.bankSlot tabId slotId = some side) : ∃ tab slot, side = .bank tab slot ∧ tab.val = tabId := by
  unfold bankSlot at h
  split at h
  · split at h
    · cases h
      exact ⟨_, _, rfl, rfl⟩
    · cases h
  · cases h

theorem bankSlotOrTab_some {tabId : ℕ} {slotId : Option ℕ} {side : MoveItemData}
    (h : w.bankSlotOrTab tabId slotId = some side) : ∃ tab slot, side = .bank tab slot := by
  cases slotId with
  | some slotId =>
    obtain ⟨tab, slot, hside, -⟩ := bankSlot_some h
    exact ⟨tab, slot, hside⟩
  | none =>
    unfold bankSlotOrTab at h
    dsimp only at h
    split at h
    · split at h
      · cases h
        exact ⟨_, _, rfl⟩
      · cases h
    · cases h

theorem tookFrom_inventory (w : BankWorld) (inventory : InventoryPos → Option Item)
    (tab : Fin guildBankMaxTabs) : tookFrom w { w with inventory := inventory } tab = false :=
  tookFrom_self w tab

theorem step_cases (E : BankEnv) (w : BankWorld) (op : Op) : StepCases E w op := by
  cases op with
  | depositMoney purse amount => exact .deposit purse amount rfl
  | withdrawMoney player purse amount repair =>
    cases hw : w.guild.handleMemberWithdrawMoney player purse amount.toNat repair with
    | some gp => exact .withdraw player purse amount repair gp.1 gp.2 rfl hw
    | none =>
      have hstep : w.step E (.withdrawMoney player purse amount repair) = w := by simp [step, hw]
      refine .nothing (by rw [hstep]) (fun tab => ?_) (by simp [handedOut, hw])
      rw [hstep, tookFrom_self]
  | swapItems player inventory tabId slotId destTabId destSlotId split =>
    have hnothing : w.step E (.swapItems player inventory tabId slotId destTabId destSlotId split) =
        { w with inventory := inventory } →
        StepCases E w (.swapItems player inventory tabId slotId destTabId destSlotId split) := by
      intro hstep
      refine .nothing (by rw [hstep]) (fun tab => ?_) rfl
      rw [hstep]
      exact tookFrom_inventory w inventory tab
    by_cases hloaded : w.guild.bankLoaded = true
    swap
    · exact hnothing (by simp [step, swapItems, hloaded])
    cases hsrc : bankSlot { w with inventory := inventory } tabId slotId with
    | none => exact hnothing (by simp [step, swapItems, hsrc])
    | some src =>
      cases hdest : bankSlot { w with inventory := inventory } destTabId destSlotId with
      | none => exact hnothing (by simp [step, swapItems, hdest])
      | some dest =>
        by_cases hsame : tabId = destTabId ∧ slotId = destSlotId
        · exact hnothing (by simp [step, swapItems, hdest, hsame])
        · refine .move player src dest inventory split ?_ (fun mover hmover => ?_) rfl
          · simp [step, swapItems, hloaded, hsrc, hdest, hsame]
          · obtain ⟨tab, slot, rfl, htab⟩ := bankSlot_some hsrc
            obtain ⟨tab', slot', rfl, htab'⟩ := bankSlot_some hdest
            unfold Op.mover at hmover
            dsimp only at hmover
            split at hmover
            · cases hmover
            next hne =>
              cases hmover
              refine ⟨rfl, decide_eq_false fun heq => hne ?_⟩
              rw [← htab, ← htab', heq]
  | swapItemsWithInventory player inventory toChar tabId slotId pos split =>
    have hnothing : w.step E (.swapItemsWithInventory player inventory toChar tabId slotId pos split) =
        { w with inventory := inventory } →
        StepCases E w (.swapItemsWithInventory player inventory toChar tabId slotId pos split) := by
      intro hstep
      refine .nothing (by rw [hstep]) (fun tab => ?_) rfl
      rw [hstep]
      exact tookFrom_inventory w inventory tab
    by_cases hloaded : w.guild.bankLoaded = true
    swap
    · exact hnothing (by simp [step, swapItemsWithInventory, hloaded])
    cases hside : bankSlotOrTab { w with inventory := inventory } tabId slotId with
    | none => exact hnothing (by simp [step, swapItemsWithInventory, hside])
    | some side =>
      obtain ⟨tab, slot, rfl⟩ := bankSlotOrTab_some hside
      cases toChar with
      | true =>
        refine .move player (.bank tab slot) (.player pos) inventory split ?_ (fun mover hmover => ?_) rfl
        · simp [step, swapItemsWithInventory, hloaded, hside]
        · cases hmover
          exact ⟨rfl, rfl⟩
      | false =>
        refine .move player (.player pos) (.bank tab slot) inventory split ?_ (fun mover hmover => ?_) rfl
        · simp [step, swapItemsWithInventory, hloaded, hside]
        · cases hmover
          exact ⟨rfl, rfl⟩

/-! ## A day -/

section Day

variable {g g₀ : Guild} {rankId : ℕ}

/-- The world after `Guild::ResetTimes`. -/
def newDay (w : BankWorld) : BankWorld := { w with guild := w.guild.resetTimes }

theorem moneyTaken_le (player : ℕ) (w : BankWorld) (op : Op) :
    moneyTaken player w op ≤ w.handedOut op := by
  unfold moneyTaken
  split
  · split
    · exact le_rfl
    · exact Nat.zero_le _
  · exact Nat.zero_le _

/-- **What a request takes is charged.** -/
theorem step_charges (h : Guild.AllowanceInv g₀ player rankId w.guild)
    (hrank : rankId ≠ grGuildmaster) (op : Op) :
    Guild.AllowanceInv g₀ player rankId (w.step E op).guild ∧
      w.guild.charged player guildBankMaxTabs + moneyTaken player w op ≤
        (w.step E op).guild.charged player guildBankMaxTabs ∧
      ∀ tab : Fin guildBankMaxTabs, w.guild.charged player tab + itemsTaken E player tab w op ≤
        (w.step E op).guild.charged player tab := by
  have hmoney := moneyTaken_le player w op
  have hitems : ∀ tab : Fin guildBankMaxTabs, op.mover = none → itemsTaken E player tab w op = 0 := by
    intro tab hnone
    unfold itemsTaken
    rw [hnone, if_neg fun hc => (nomatch hc.1)]
  cases step_cases E w op with
  | nothing hstep htook hnone =>
    rw [hstep]
    refine ⟨h, by omega, fun tab => ?_⟩
    unfold itemsTaken
    rw [if_neg fun hc => by rw [htook] at hc; exact Bool.false_ne_true hc.2, Nat.add_zero]
  | move mover src dest inventory split hstep hmover hnone =>
    have h' : Guild.AllowanceInv g₀ player rankId ({ w with inventory := inventory }).guild := h
    obtain ⟨hinv, hmono, htaken⟩ := moveItems_charges (E := E) h' hrank mover src dest split
    rw [← hstep] at hinv hmono htaken
    refine ⟨hinv, ?_, fun tab => ?_⟩
    · have hkept := hmono guildBankMaxTabs
      dsimp only at hkept
      omega
    · unfold itemsTaken
      split
      · next hc =>
        obtain ⟨rfl, hother⟩ := hmover player hc.1
        exact htaken tab rfl hother hc.2
      · exact hmono tab
  | deposit purse amount hop =>
    subst hop
    have hinv : Guild.AllowanceInv g₀ player rankId
        { w.guild with bankMoney := (w.guild.bankMoney + amount.toNat) % 2 ^ 64 } :=
      h.congr rfl rfl rfl
    refine ⟨hinv, le_rfl, fun tab => ?_⟩
    exact le_rfl
  | withdraw taker purse amount repair g purse' hop hw =>
    subst hop
    have hstep : (w.step E (.withdrawMoney taker purse amount repair)).guild = g := by
      simp [step, hw]
    obtain ⟨hinv, hcharged⟩ := h.withdrawMoney hrank hw
    rw [hstep]
    refine ⟨hinv, ?_, fun tab => ?_⟩
    · rw [hcharged]
      unfold moneyTaken handedOut
      simp [hw]
    · rw [hitems tab rfl, hcharged]
      exact Nat.le_add_right _ _

/-- After `Guild::ResetTimes` nobody has been charged anything. -/
theorem newDay_allowance {m : Member} (hm : w.guild.getMember player = some m) :
    Guild.AllowanceInv w.guild player m.rankId w.newDay.guild ∧
      ∀ t, w.newDay.guild.charged player t = 0 := by
  have hfound : w.newDay.guild.getMember player = some m.resetValues := by
    have hkey : (fun m : Member => decide (m.guid = player)) ∘ Member.resetValues =
        fun m => decide (m.guid = player) := rfl
    show (w.guild.members.map Member.resetValues).find? _ = _
    rw [List.find?_map, hkey]
    exact congrArg (Option.map Member.resetValues) hm
  have hcharged : ∀ t, w.newDay.guild.charged player t = 0 := by
    intro t
    unfold Guild.charged
    rw [hfound]
    show ((List.replicate (guildBankMaxTabs + 1) 0)[t]?).getD 0 = 0
    rw [List.getElem?_replicate]
    split <;> rfl
  exact ⟨⟨rfl, rfl, ⟨_, hfound, rfl, List.length_replicate⟩, fun t _ => by
    rw [hcharged]
    exact Nat.zero_le _⟩, hcharged⟩

/-! ## The limits of ranks -/

/-- `BankMoneyPerDay` of a rank. -/
def moneyLimit (g : Guild) (rankId : ℕ) : ℕ :=
  ((g.getRankInfo rankId).map RankInfo.bankMoneyPerDay).getD 0

/-- The slots per day of a rank for a tab. -/
def slotLimit (g : Guild) (rankId tabId : ℕ) : ℕ :=
  ((g.getRankInfo rankId).map fun r =>
    (r.bankTabRightsAndSlots[tabId]?.map GuildBankRightsAndSlots.slots).getD 0).getD 0

theorem allowance_le_moneyLimit (g : Guild) (rankId : ℕ) :
    g.allowance rankId guildBankMaxTabs ≤ moneyLimit g rankId := by
  rw [Guild.allowance_money]
  unfold Guild.getRankBankMoneyPerDay moneyLimit
  cases g.getRankInfo rankId with
  | none => exact le_rfl
  | some r => exact Guild.toInt32_toNat_le _

theorem allowance_le_slotLimit (g : Guild) (rankId : ℕ) (tab : Fin guildBankMaxTabs) :
    g.allowance rankId tab ≤ slotLimit g rankId tab := by
  rw [Guild.allowance_tab tab.isLt]
  unfold Guild.getRankBankTabSlotsPerDay slotLimit
  split
  · cases g.getRankInfo rankId with
    | none => exact le_rfl
    | some r => exact Guild.toInt32_toNat_le _
  · exact Nat.zero_le _

/-! ## Money and guild masters -/

/-- The member has the rank. -/
def HasRank (player rankId : ℕ) (g : Guild) : Prop :=
  ∃ m, g.getMember player = some m ∧ m.rankId = rankId

theorem hasRank_congr {g' : Guild} (h : HasRank player rankId g) (hmembers : g'.members = g.members) :
    HasRank player rankId g' := by
  unfold HasRank Guild.getMember
  rw [hmembers]
  exact h

theorem hasRank_charge (h : HasRank player rankId g) {guid : ℕ} {m : Member}
    (hm : g.getMember guid = some m) (t amount : ℕ) :
    HasRank player rankId (g.writeMember (m.updateBankWithdrawValue t amount)) := by
  obtain ⟨m', hm', hrank⟩ := h
  have hguid : m.guid = guid := (Guild.mem_of_getMember hm).2
  unfold HasRank
  rw [Guild.getMember_writeMember]
  split
  · next heq =>
    have hsame : guid = player := hguid.symm.trans heq
    subst hsame
    rw [hm] at hm' ⊢
    cases hm'
    exact ⟨_, rfl, hrank⟩
  · exact ⟨m', hm', hrank⟩

theorem hasRank_withdrawMoney (h : HasRank player rankId g) {taker purse amount : ℕ} {repair : Bool}
    {g' : Guild} {purse' : ℕ}
    (hw : g.handleMemberWithdrawMoney taker purse amount repair = some (g', purse')) :
    HasRank player rankId g' ∧ g'.bankMoney + min amount maxMoneyAmount = g.bankMoney := by
  unfold Guild.handleMemberWithdrawMoney at hw
  dsimp only at hw
  split at hw
  · cases hw
  next henough =>
    split at hw
    · cases hw
    next m hm =>
      split at hw
      · cases hw
      split at hw
      · cases hw
      obtain ⟨rfl, -⟩ := Prod.mk.inj (Option.some.inj hw)
      have hcharged := hasRank_charge h hm guildBankMaxTabs (min amount maxMoneyAmount)
      have hmoney : (g.writeMember (m.updateBankWithdrawValue guildBankMaxTabs
          (min amount maxMoneyAmount))).bankMoney = g.bankMoney := rfl
      unfold Guild.modifyBankMoney
      rw [if_neg Bool.false_ne_true, hmoney, if_neg henough]
      exact ⟨hasRank_congr hcharged rfl, Nat.sub_add_cancel (not_lt.mp henough)⟩

theorem step_hasRank (h : HasRank player rankId w.guild) (op : Op) :
    HasRank player rankId (w.step E op).guild := by
  cases step_cases E w op with
  | nothing hstep => rwa [hstep]
  | move mover src dest inventory split hstep =>
    have h' : HasRank player rankId ({ w with inventory := inventory } : BankWorld).guild := h
    rw [hstep]
    refine moveItems_guild_keeps (fun g g' hg hbooks => hasRank_congr hg hbooks.members)
      (fun g tab hg => ?_) h' split
    unfold Guild.updateMemberWithdrawSlots
    split
    · next m hm =>
      split
      · exact hasRank_charge hg hm tab 1
      · exact hg
    · exact hg
  | deposit purse amount hop =>
    subst hop
    exact hasRank_congr h rfl
  | withdraw taker purse amount repair g purse' hop hw =>
    subst hop
    have hstep : (w.step E (.withdrawMoney taker purse amount repair)).guild = g := by
      simp [step, hw]
    rw [hstep]
    exact (hasRank_withdrawMoney h hw).1

/-- The money of the bank after a request: what is handed out was there. -/
def MoneyAddsUp (E : BankEnv) (w : BankWorld) (op : Op) : Prop :=
  match op with
  | .depositMoney _ amount =>
    (w.step E op).guild.bankMoney = (w.guild.bankMoney + amount.toNat) % 2 ^ 64
  | _ => (w.step E op).guild.bankMoney + w.handedOut op = w.guild.bankMoney

theorem step_money (E : BankEnv) (w : BankWorld) (op : Op) : MoneyAddsUp E w op := by
  have hsame : (w.step E op).guild.bankMoney = w.guild.bankMoney → w.handedOut op = 0 →
      MoneyAddsUp E w op := by
    intro hmoney hzero
    cases op with
    | depositMoney purse amount => rfl
    | withdrawMoney | swapItems | swapItemsWithInventory =>
      show (w.step E _).guild.bankMoney + w.handedOut _ = w.guild.bankMoney
      rw [hmoney, hzero, Nat.add_zero]
  cases step_cases E w op with
  | nothing hstep _ hnone => exact hsame (by rw [hstep]) hnone
  | move mover src dest inventory split hstep _ hnone =>
    refine hsame ?_ hnone
    have h' : ({ w with inventory := inventory } : BankWorld).guild.bankMoney = w.guild.bankMoney := rfl
    rw [hstep]
    refine @moveItems_guild_keeps E _ mover src dest (fun g => g.bankMoney = w.guild.bankMoney)
      (fun g g' hg hbooks => hbooks.money.trans hg) (fun g tab hg => ?_) h' split
    unfold Guild.updateMemberWithdrawSlots
    repeat' split
    all_goals exact hg
  | deposit purse amount hop =>
    subst hop
    rfl
  | withdraw taker purse amount repair g purse' hop hw =>
    subst hop
    have hstep : (w.step E (.withdrawMoney taker purse amount repair)).guild = g := by
      simp [step, hw]
    have hmember : ∃ m, w.guild.getMember taker = some m := by
      unfold Guild.handleMemberWithdrawMoney at hw
      cases hm : w.guild.getMember taker with
      | some m => exact ⟨m, rfl⟩
      | none =>
        rw [hm] at hw
        dsimp only at hw
        split at hw <;> cases hw
    obtain ⟨m, hm⟩ := hmember
    have hmoney := (hasRank_withdrawMoney ⟨m, hm, rfl⟩ hw).2
    have hout : w.handedOut (.withdrawMoney taker purse amount repair) =
        min amount.toNat maxMoneyAmount := by
      simp [handedOut, hw]
    show (w.step E _).guild.bankMoney + w.handedOut _ = w.guild.bankMoney
    rw [hstep, hout, hmoney]

/-- **A guild master is never refused for a limit**: items are free, and money is refused only where
the bank has not got it, or the purse has no room. -/
structure Unlimited (player : ℕ) (g : Guild) : Prop where
  items : ∀ self other : MoveItemData, self.hasWithdrawRights g player other = true
  money : ∀ (purse amount : ℕ) (repair : Bool), min amount maxMoneyAmount ≤ g.bankMoney →
    (repair = true ∨ Player.modifyMoneyResult purse (min amount maxMoneyAmount : ℕ) = true) →
    (g.handleMemberWithdrawMoney player purse amount repair).isSome = true

theorem unlimited_of_guildmaster (h : HasRank player grGuildmaster g) : Unlimited player g := by
  obtain ⟨m, hm, hrank⟩ := h
  constructor
  · intro self other
    cases self with
    | player pos => rfl
    | bank tab slot =>
      simp only [MoveItemData.hasWithdrawRights, hm, Option.map_some, Option.getD_some,
        Guild.getMemberRemainingSlots, hrank, if_true, Bool.or_eq_true, decide_eq_true_eq]
      exact .inr (by decide)
  · intro purse amount repair hmoney hroom
    have hleft : ¬ g.getMemberRemainingMoney m % 2 ^ 32 < (min amount maxMoneyAmount : ℕ) := by
      unfold Guild.getMemberRemainingMoney
      have hle : min amount maxMoneyAmount ≤ 2 ^ 31 - 1 := Nat.min_le_right _ _
      have hmax : Lib.toInt32 guildWithdrawUnlimited % 2 ^ 32 = 2 ^ 32 - 1 := by decide
      omega
    have hpurse : ¬ (!repair && !Player.modifyMoneyResult purse (min amount maxMoneyAmount : ℕ)) =
        true := by
      rcases hroom with h | h
      · simp [h]
      · rw [h]
        simp
    unfold Guild.handleMemberWithdrawMoney
    rw [if_neg (not_lt.mpr hmoney), hm]
    dsimp only
    rw [if_neg hleft, if_neg hpurse]
    rfl

/-- **Daily limits of the guild bank.** In every run of requests after `Guild::ResetTimes`, a member
who is not a guild master takes no more money than his rank's limit, and no more items out of a tab than
its limit for the tab. A guild master is never refused for a limit. All money that is handed out was in
the bank. -/
theorem daily_limits_hold (E : BankEnv) (w : BankWorld) {player : ℕ} {m : Member}
    (hm : w.guild.getMember player = some m) (ops : List Op) :
    (m.rankId ≠ grGuildmaster →
      usedAlong (step E) (moneyTaken player) w.newDay ops ≤ moneyLimit w.guild m.rankId ∧
      ∀ tab : Fin guildBankMaxTabs, usedAlong (step E) (itemsTaken E player tab) w.newDay ops ≤
        slotLimit w.guild m.rankId tab) ∧
    (m.rankId = grGuildmaster → Unlimited player (ops.foldl (step E) w.newDay).guild) ∧
    AllAlong (step E) (MoneyAddsUp E) w.newDay ops := by
  obtain ⟨hinit, hzero⟩ := newDay_allowance hm
  refine ⟨fun hrank => ?_, fun hrank => ?_, allAlong_of_forall (step_money E) _ _⟩
  · have hkeeps : ∀ (w' : BankWorld) (op : Op), Guild.AllowanceInv w.guild player m.rankId w'.guild →
        Guild.AllowanceInv w.guild player m.rankId (w'.step E op).guild :=
      fun w' op h => (step_charges h hrank op).1
    constructor
    · have hcharge : ∀ (w' : BankWorld) (op : Op), Guild.AllowanceInv w.guild player m.rankId w'.guild →
          w'.guild.charged player guildBankMaxTabs + moneyTaken player w' op ≤
            (w'.step E op).guild.charged player guildBankMaxTabs :=
        fun w' op h => (step_charges h hrank op).2.1
      have hrun := usedAlong_le hkeeps hcharge (fun w' h => h.within _ le_rfl) ops hinit
      exact (Nat.le_add_left _ _).trans (hrun.trans (allowance_le_moneyLimit ..))
    · intro tab
      have hcharge : ∀ (w' : BankWorld) (op : Op), Guild.AllowanceInv w.guild player m.rankId w'.guild →
          w'.guild.charged player tab + itemsTaken E player tab w' op ≤
            (w'.step E op).guild.charged player tab :=
        fun w' op h => (step_charges h hrank op).2.2 tab
      have hrun := usedAlong_le hkeeps hcharge (fun w' h => h.within _ tab.isLt.le) ops hinit
      exact (Nat.le_add_left _ _).trans (hrun.trans (allowance_le_slotLimit ..))
  · obtain ⟨m', hm', hrank', -⟩ := hinit.member
    have hkeeps : ∀ (w' : BankWorld) (op : Op), HasRank player grGuildmaster w'.guild →
        HasRank player grGuildmaster (w'.step E op).guild := fun w' op h => step_hasRank h op
    exact unlimited_of_guildmaster (foldl_keeps hkeeps ops ⟨m', hm', hrank'.trans hrank⟩)

/-- A member of the lowest rank, which may take `money` a day. -/
def withdrawals (money : ℕ) : BankWorld :=
  { emptyTab with guild :=
    { emptyTab.guild with
      members := [.new 1 "Ada" 0, .new 2 "Bob" 1]
      ranks := [.new 0 "Guild Master" grRightAll 0, .new 1 "Member" grRightAll money]
      bankMoney := 100 } }

/-- He takes 7 of 10, and is refused 5 more. -/
theorem daily_limits_hold_withdrawals :
    usedAlong (step (storesNamed fun _ => 1)) (moneyTaken 2) (withdrawals 10).newDay
      [.withdrawMoney 2 0 7 false, .withdrawMoney 2 7 5 false] ≤ 10 :=
  have hm : (withdrawals 10).guild.getMember 2 = some (.new 2 "Bob" 1) := rfl
  ((daily_limits_hold (storesNamed fun _ => 1) (withdrawals 10) hm _).1 (by decide)).1

/-- The unlimited rank refuses a member who is not a guild master. -/
theorem unlimited_rank_refuses :
    ¬ ∀ (g : Guild) (player : ℕ) (m : Member), g.getMember player = some m →
      m.rankId ≠ grGuildmaster → moneyLimit g m.rankId = guildWithdrawUnlimited →
      g.getRankRights m.rankId = grRightAll → ∀ (purse amount : ℕ) (repair : Bool),
        amount ≤ g.bankMoney → purse + amount < maxMoneyAmount →
        (g.handleMemberWithdrawMoney player purse amount repair).isSome = true := by
  intro h
  have hsome := h (withdrawals guildWithdrawUnlimited).guild 2 (.new 2 "Bob" 1) rfl (by decide)
    rfl rfl 0 1 false (by decide) (by decide)
  exact absurd hsome (by decide)

end Day

end BankWorld

end Sunstrider.Guilds
