import Sunstrider.Groups.RollAwards
import Sunstrider.Laws.Groups.Rolls
import Sunstrider.Laws.Loots.Units

/-!
# The right player wins a loot roll

A loop over the votes of one kind leaves as many of them as there are players present for them
(`foldl_countEntry_total`), and finds one of the best of these (`foldl_countEntry_best`). For greed that is
all (`countGreed_best`). For need the first player of the list wins where no player is present who voted
for need, so that a roll goes to the right player exactly where this first player is not found
(`awardedRight_iff`).
-/

namespace Sunstrider.Groups

open Lib (decU8)

/-- The counters are those of the votes, and bytes. -/
structure Roll.Consistent (r : Roll) : Prop extends Tallied r where
  keys : (r.playerVote.map Prod.fst).Nodup
  small : r.playerVote.length < 2 ^ 8

theorem Roll.entries_perm (r : Roll) : r.entries.Perm r.playerVote := List.perm_insertionSort ..

namespace RollMoment

variable {m : RollMoment} {r : LootRoll} {vote : RollVote} {o : RollOutcome}

/-- A player is present who cast the vote. -/
def Votes (m : RollMoment) (r : Roll) (vote : RollVote) (guid : ℕ) : Prop :=
  (guid, vote) ∈ r.playerVote ∧ m.present guid = true

/-- A player who cast the vote, and has the best result of those who are present. -/
structure Best (m : RollMoment) (r : Roll) (vote : RollVote) (guid : ℕ) : Prop where
  votes : m.Votes r vote guid
  best : ∀ guid', m.Votes r vote guid' → m.randomN vote guid' ≤ m.randomN vote guid

/-- The item goes to one player at most, to the best of those who voted for need, and if there are none
of those for greed. Where there are none either, nobody gets it and it is unblocked. -/
structure AwardedRight (m : RollMoment) (r : LootRoll) (o : RollOutcome) : Prop where
  once : o.given.length ≤ 1
  need : (∃ guid, m.Votes r.roll .need guid) → ∀ guid ∈ o.given, m.Best r.roll .need guid
  greed : (¬ ∃ guid, m.Votes r.roll .need guid) → (∃ guid, m.Votes r.roll .greed guid) →
    ∀ guid ∈ o.given, m.Best r.roll .greed guid
  nobody : (¬ ∃ guid, m.Votes r.roll .need guid) → (¬ ∃ guid, m.Votes r.roll .greed guid) →
    o.given = [] ∧ ∀ item, o.loot.itemAt r.itemSlot = some item → item.isBlocked = false

/-- There are votes for need, but of players who are not present, and the first player of the list is
found. -/
structure DefaultWins (m : RollMoment) (r : Roll) : Prop where
  wanted : ∃ guid, (guid, RollVote.need) ∈ r.playerVote
  absent : ¬ ∃ guid, m.Votes r .need guid
  found : ∃ first ∈ r.entries.head?, (m.findPlayer first.1).any ConnectedPlayer.hasSession = true

/-! ## A loop over the votes -/

theorem randomN_pos (m : RollMoment) (vote : RollVote) (guid : ℕ) : 0 < m.randomN vote guid :=
  Nat.succ_pos _

theorem votes_of_mem {l : List (ℕ × RollVote)} (h : l.Perm r.roll.playerVote) {e : ℕ × RollVote}
    (he : e ∈ l) (hvote : e.2 = vote) (hpresent : m.present e.1 = true) : m.Votes r.roll vote e.1 := by
  refine ⟨?_, hpresent⟩
  rw [← hvote]
  exact h.mem_iff.mp he

/-- **What is left of a total** is the number of the players who are present. -/
theorem foldl_countEntry_total (m : RollMoment) (vote : RollVote) (l : List (ℕ × RollVote)) :
    ∀ (c : RollCount) (k : ℕ), c.total = l.countP (fun e => e.2 = vote) + k → c.total < 2 ^ 8 →
      (l.foldl (m.countEntry vote) c).total =
        l.countP (fun e => e.2 = vote ∧ m.present e.1 = true) + k := by
  induction l with
  | nil => exact fun c k h _ => h
  | cons e l ih =>
    intro c k h hsmall
    rw [List.foldl_cons]
    by_cases hvote : e.2 = vote
    · by_cases hpresent : m.present e.1 = true
      · have htotal : (m.countEntry vote c e).total = c.total := by
          rw [countEntry, if_neg (not_not.mpr hvote), if_neg (by simp [hpresent])]
          split <;> rfl
        rw [ih _ (k + 1) (by rw [htotal]; simp [hvote] at h; omega) (by rwa [htotal])]
        simp [hvote, hpresent]
        omega
      · have htotal : (m.countEntry vote c e).total = c.total - 1 := by
          rw [countEntry, if_neg (not_not.mpr hvote), if_pos (by simp [hpresent])]
          obtain ⟨n, hn⟩ : ∃ n, c.total = n + 1 := ⟨c.total - 1, by simp [hvote] at h; omega⟩
          rw [hn] at hsmall ⊢
          exact Lib.decU8_eq hsmall
        rw [ih _ k (by rw [htotal]; simp [hvote] at h; omega) (by rw [htotal]; omega)]
        simp [hpresent]
    · have hsame : m.countEntry vote c e = c := if_pos hvote
      rw [hsame, ih c k (by simpa [hvote] using h) hsmall]
      simp [hvote]

/-- **What a loop finds**: a player whose result is the best, or nobody where nobody is present. -/
theorem foldl_countEntry_best (m : RollMoment) (vote : RollVote) (l : List (ℕ × RollVote)) :
    ∀ c : RollCount, c.maxresul ≤ (l.foldl (m.countEntry vote) c).maxresul ∧
      (∀ e ∈ l, e.2 = vote → m.present e.1 = true →
        m.randomN vote e.1 ≤ (l.foldl (m.countEntry vote) c).maxresul) ∧
      ((l.foldl (m.countEntry vote) c).maxguid = c.maxguid ∧
          (l.foldl (m.countEntry vote) c).maxresul = c.maxresul ∨
        ∃ e ∈ l, e.2 = vote ∧ m.present e.1 = true ∧ c.maxresul < m.randomN vote e.1 ∧
          (l.foldl (m.countEntry vote) c).maxguid = some e.1 ∧
          (l.foldl (m.countEntry vote) c).maxresul = m.randomN vote e.1) := by
  induction l with
  | nil => exact fun c => ⟨le_rfl, by simp, .inl ⟨rfl, rfl⟩⟩
  | cons e l ih =>
    intro c
    rw [List.foldl_cons]
    obtain ⟨hle, hall, hbest⟩ := ih (m.countEntry vote c e)
    -- one round: the maximum grows to the result of the entry, or stays
    have hround : c.maxresul ≤ (m.countEntry vote c e).maxresul ∧
        (e.2 = vote → m.present e.1 = true → m.randomN vote e.1 ≤ (m.countEntry vote c e).maxresul) ∧
        ((m.countEntry vote c e).maxguid = c.maxguid ∧
            (m.countEntry vote c e).maxresul = c.maxresul ∨
          e.2 = vote ∧ m.present e.1 = true ∧ c.maxresul < m.randomN vote e.1 ∧
            (m.countEntry vote c e).maxguid = some e.1 ∧
            (m.countEntry vote c e).maxresul = m.randomN vote e.1) := by
      unfold countEntry
      split
      next hvote => exact ⟨le_rfl, fun h => absurd h hvote, .inl ⟨rfl, rfl⟩⟩
      next hvote =>
        split
        next hpresent =>
          exact ⟨le_rfl, fun _ h => absurd h (by simpa using hpresent), .inl ⟨rfl, rfl⟩⟩
        next hpresent =>
          split
          next hlt =>
            exact ⟨hlt.le, fun _ _ => le_rfl,
              .inr ⟨not_not.mp hvote, by simpa using hpresent, hlt, rfl, rfl⟩⟩
          next hge => exact ⟨le_rfl, fun _ _ => not_lt.mp hge, .inl ⟨rfl, rfl⟩⟩
    refine ⟨hround.1.trans hle, ?_, ?_⟩
    · intro e' he' hvote hpresent
      rcases List.mem_cons.mp he' with rfl | he'
      · exact (hround.2.1 hvote hpresent).trans hle
      · exact hall e' he' hvote hpresent
    · rcases hbest with ⟨hguid, hresul⟩ | ⟨e', he', hvote, hpresent, hlt, hfound⟩
      · rw [hguid, hresul]
        rcases hround.2.2 with hsame | hfound
        · exact .inl hsame
        · exact .inr ⟨e, List.mem_cons_self, hfound⟩
      · exact .inr ⟨e', List.mem_cons_of_mem _ he', hvote, hpresent, hround.1.trans_lt hlt, hfound⟩

theorem foldl_countEntry_spec (m : RollMoment) (r : LootRoll) (vote : RollVote) (total : ℕ)
    (start : Option ℕ) :
    (∃ guid, (r.roll.entries.foldl (m.countEntry vote) ⟨total, start, 0⟩).maxguid = some guid ∧
        m.Best r.roll vote guid) ∨
      (¬ ∃ guid, m.Votes r.roll vote guid) ∧
        (r.roll.entries.foldl (m.countEntry vote) ⟨total, start, 0⟩).maxguid = start := by
  obtain ⟨-, hall, hbest⟩ := foldl_countEntry_best m vote r.roll.entries ⟨total, start, 0⟩
  have hperm := r.roll.entries_perm
  rcases hbest with ⟨hguid, hresul⟩ | ⟨e, he, hvote, hpresent, -, hguid, hresul⟩
  · refine .inr ⟨?_, hguid⟩
    rintro ⟨guid, hmem, hpresent⟩
    have hle := hall _ (hperm.mem_iff.mpr hmem) rfl hpresent
    rw [hresul] at hle
    exact absurd hle (Nat.not_le_of_lt (m.randomN_pos vote guid))
  · refine .inl ⟨e.1, hguid, votes_of_mem hperm he hvote hpresent, ?_⟩
    rintro guid ⟨hmem, hpresent'⟩
    rw [← hresul]
    exact hall _ (hperm.mem_iff.mpr hmem) rfl hpresent'

theorem foldl_countEntry_eq_zero (m : RollMoment) (vote : RollVote) {total : ℕ} (start : Option ℕ)
    (h : r.roll.Consistent)
    (htotal : total = r.roll.votes vote) :
    (r.roll.entries.foldl (m.countEntry vote) ⟨total, start, 0⟩).total = 0 ↔
      ¬ ∃ guid, m.Votes r.roll vote guid := by
  have hperm := r.roll.entries_perm
  have hcount : total = r.roll.entries.countP (fun e => e.2 = vote) + 0 := by
    rw [htotal, Roll.votes, hperm.countP_eq, Nat.add_zero]
  have hsmall : total < 2 ^ 8 := by
    rw [htotal]
    exact (r.roll.votes_le_size vote).trans_lt h.small
  rw [foldl_countEntry_total m vote _ ⟨total, start, 0⟩ 0 hcount hsmall, Nat.add_zero,
    List.countP_eq_zero]
  constructor
  · rintro hnone ⟨guid, hmem, hpresent⟩
    exact hnone (guid, vote) (hperm.mem_iff.mpr hmem) (by simp [hpresent])
  · intro hnone e he hboth
    simp only [decide_eq_true_eq] at hboth
    exact hnone ⟨e.1, votes_of_mem hperm he hboth.1 hboth.2⟩

theorem foldl_countEntry_head (m : RollMoment) (r : LootRoll) (vote : RollVote) (first : ℕ × RollVote)
    (total : ℕ) (start : Option ℕ)
    (hhead : r.roll.entries.head? = some first) (hvote : first.2 = vote)
    (hbest : m.Best r.roll vote first.1) :
    (r.roll.entries.foldl (m.countEntry vote) ⟨total, start, 0⟩).maxguid = some first.1 := by
  have hperm := r.roll.entries_perm
  obtain ⟨rest, hentries⟩ : ∃ rest, r.roll.entries = first :: rest := List.head?_eq_some_iff.mp hhead
  have hround : m.countEntry vote ⟨total, start, 0⟩ first =
      ⟨total, some first.1, m.randomN vote first.1⟩ := by
    rw [countEntry, if_neg (not_not.mpr hvote), if_neg (by simp [hbest.votes.2])]
    exact if_pos (m.randomN_pos vote first.1)
  rw [hentries, List.foldl_cons, hround]
  obtain ⟨-, -, hfound⟩ :=
    foldl_countEntry_best m vote rest ⟨total, some first.1, m.randomN vote first.1⟩
  rcases hfound with ⟨hguid, -⟩ | ⟨e, he, hvote', hpresent, hlt, -⟩
  · exact hguid
  · have hmem : e ∈ r.roll.entries := hentries ▸ List.mem_cons_of_mem _ he
    have hle := hbest.best e.1 (votes_of_mem hperm hmem hvote' hpresent)
    exact absurd hlt hle.not_gt

/-! ## The two kinds of vote -/

variable {guid : ℕ}

theorem head?_of_votes (h : (guid, vote) ∈ r.roll.playerVote) :
    ∃ first rest, r.roll.entries = first :: rest := by
  have hmem := r.roll.entries_perm.mem_iff.mpr h
  cases hentries : r.roll.entries with
  | nil =>
    rw [hentries] at hmem
    cases hmem
  | cons first rest => exact ⟨first, rest, rfl⟩

theorem not_mem_of_votes (h : r.roll.votes vote = 0) : (guid, vote) ∉ r.roll.playerVote := by
  intro hmem
  rw [Roll.votes, List.countP_eq_zero] at h
  exact h _ hmem (by simp)

/-- **The votes for need**: the best who is present wins; and if nobody is, nothing is left of the total, and
the first player of the list wins if he is found. -/
theorem countNeed_spec (h : r.roll.Consistent) (o : RollOutcome) :
    (∃ guid, m.Best r.roll .need guid ∧ (m.countNeed r o).1 ≠ 0 ∧
        (m.countNeed r o).2 = m.giveTo .need r.itemSlot (m.findPlayer guid) guid o) ∨
      (¬ ∃ guid, m.Votes r.roll .need guid) ∧ (m.countNeed r o).1 = 0 ∧
        (¬ m.DefaultWins r.roll → (m.countNeed r o).2 = o) ∧
        (m.DefaultWins r.roll → ∃ first, r.roll.entries.head? = some first ∧
          (m.findPlayer first.1).any ConnectedPlayer.hasSession = true ∧
          (m.countNeed r o).2.given = o.given ++ [first.1]) := by
  by_cases htotal : 0 < r.roll.totalNeed
  · have hvotes : 0 < r.roll.votes .need := h.need ▸ htotal
    obtain ⟨e, he, hvote⟩ := List.countP_pos_iff.mp hvotes
    have hmem : (e.1, RollVote.need) ∈ r.roll.playerVote := by
      rw [← of_decide_eq_true hvote]
      exact he
    obtain ⟨first, rest, hentries⟩ := head?_of_votes hmem
    have hspec := foldl_countEntry_spec m r .need r.roll.totalNeed (some first.1)
    have hzero := foldl_countEntry_eq_zero m .need (some first.1) h h.need
    rw [hentries] at hspec hzero
    unfold countNeed
    rw [if_pos htotal, hentries]
    dsimp only
    rcases hspec with ⟨guid, hguid, hbest⟩ | ⟨hnone, hguid⟩
    · refine .inl ⟨guid, hbest, ?_, ?_⟩
      · rw [hguid]
        exact fun hz => hzero.mp hz ⟨guid, hbest.votes⟩
      · rw [hguid]
    · refine .inr ⟨hnone, ?_, ?_, ?_⟩
      · rw [hguid]
        exact hzero.mpr hnone
      · intro hdefault
        rw [hguid]
        refine if_neg fun hfound => hdefault ⟨⟨e.1, hmem⟩, hnone, first, ?_, hfound⟩
        rw [hentries]
        rfl
      · rintro ⟨-, -, first', hfirst', hfound⟩
        rw [hentries] at hfirst'
        cases hfirst'
        refine ⟨first, rfl, hfound, ?_⟩
        rw [hguid]
        simp only [giveTo, hfound, if_true]
  · have hvotes : r.roll.votes .need = 0 := by
      rw [← h.need]
      omega
    have hsame : m.countNeed r o = (r.roll.totalNeed, o) := if_neg htotal
    refine .inr ⟨?_, ?_, ?_, ?_⟩
    · rintro ⟨guid, hmem, -⟩
      exact not_mem_of_votes hvotes hmem
    · rw [hsame]
      omega
    · rw [hsame]
      exact fun _ => rfl
    · rintro ⟨⟨guid, hmem⟩, -⟩
      exact absurd hmem (not_mem_of_votes hvotes)

/-- **The votes for greed**, where nothing is left of those for need. -/
theorem countGreed_spec (h : r.roll.Consistent) (o : RollOutcome) :
    (∃ guid, m.Best r.roll .greed guid ∧ (m.countGreed r 0 o).1 ≠ 0 ∧
        (∀ first, r.roll.entries.head? = some first → m.Best r.roll .greed first.1 → guid = first.1) ∧
        (m.countGreed r 0 o).2 =
          m.giveTo .greed r.itemSlot (m.findConnectedPlayer guid) guid o) ∨
      (¬ ∃ guid, m.Votes r.roll .greed guid) ∧ m.countGreed r 0 o = (0, o) := by
  by_cases htotal : 0 < r.roll.totalGreed
  · have hvotes : 0 < r.roll.votes .greed := h.greed ▸ htotal
    obtain ⟨e, he, hvote⟩ := List.countP_pos_iff.mp hvotes
    have hmem : (e.1, RollVote.greed) ∈ r.roll.playerVote := by
      rw [← of_decide_eq_true hvote]
      exact he
    obtain ⟨first, rest, hentries⟩ := head?_of_votes hmem
    have hspec := foldl_countEntry_spec m r .greed r.roll.totalGreed none
    have hzero := foldl_countEntry_eq_zero m .greed none h h.greed
    have hfirst := foldl_countEntry_head m r .greed first r.roll.totalGreed none
    rw [hentries] at hspec hzero hfirst
    unfold countGreed
    rw [if_pos ⟨rfl, htotal⟩, hentries]
    dsimp only
    rcases hspec with ⟨guid, hguid, hbest⟩ | ⟨hnone, hguid⟩
    · refine .inl ⟨guid, hbest, ?_, ?_, ?_⟩
      · rw [hguid]
        exact fun hz => hzero.mp hz ⟨guid, hbest.votes⟩
      · rintro first' hfirst' hbest'
        cases hfirst'
        have hvote' : first.2 = .greed := by
          have hfirstMem : first ∈ r.roll.playerVote :=
            r.roll.entries_perm.mem_iff.mp (hentries ▸ List.mem_cons_self)
          exact congrArg Prod.snd (Lib.eq_of_key h.keys hfirstMem hbest'.votes.1 rfl)
        have hhead := hfirst rfl hvote' hbest'
        rw [hguid] at hhead
        exact Option.some.inj hhead
      · rw [hguid]
    · refine .inr ⟨hnone, ?_⟩
      rw [hguid]
  · have hvotes : r.roll.votes .greed = 0 := by
      rw [← h.greed]
      omega
    refine .inr ⟨?_, ?_⟩
    · rintro ⟨guid, hmem, -⟩
      exact not_mem_of_votes hvotes hmem
    · have hsame : m.countGreed r 0 o = (r.roll.totalGreed, o) := if_neg fun hboth => htotal hboth.2
      rw [hsame, Nat.eq_zero_of_not_pos htotal]

theorem given_giveTo (vote : RollVote) (slot : ℕ) (winner : Option ConnectedPlayer) (guid : ℕ)
    (o : RollOutcome) : (m.giveTo vote slot winner guid o).given = o.given ∨
      (m.giveTo vote slot winner guid o).given = o.given ++ [guid] := by
  unfold giveTo
  split
  · exact .inr rfl
  · exact .inl rfl

theorem given_countLootRoll (r : LootRoll) (loot : Loots.Loot) :
    (m.countLootRoll r loot).given =
      (m.countGreed r (m.countNeed r ⟨loot, []⟩).1 (m.countNeed r ⟨loot, []⟩).2).2.given := by
  unfold countLootRoll
  dsimp only
  split <;> rfl

/-! ## The loot -/

/-- The loot as the other rolls for its items read it. -/
def lootOf (l : Loots.Loot) : Loot := ⟨l.items.length⟩

theorem lootOf_modifyAt (l : Loots.Loot) (slot : ℕ) (f : Loots.LootItem → Loots.LootItem) :
    lootOf (l.modifyAt slot f) = lootOf l :=
  congrArg Loot.mk (Loots.Loot.length_items_modifyAt l slot f).1

theorem lootOf_giveTo (vote : RollVote) (slot : ℕ) (winner : Option ConnectedPlayer) (guid : ℕ)
    (o : RollOutcome) : lootOf (m.giveTo vote slot winner guid o).loot = lootOf o.loot := by
  unfold giveTo
  split
  · show lootOf (o.loot.award _) = _
    unfold Loots.Loot.award
    dsimp only
    split
    · rfl
    · split <;> exact lootOf_modifyAt ..
  · rfl

theorem lootOf_countNeed (r : LootRoll) (o : RollOutcome) :
    lootOf (m.countNeed r o).2.loot = lootOf o.loot := by
  unfold countNeed
  split
  · cases r.roll.entries with
    | nil => rfl
    | cons first rest =>
      dsimp only
      split
      · exact lootOf_giveTo ..
      · rfl
  · rfl

theorem lootOf_countGreed (r : LootRoll) (totalNeed : ℕ) (o : RollOutcome) :
    lootOf (m.countGreed r totalNeed o).2.loot = lootOf o.loot := by
  unfold countGreed
  split
  · cases r.roll.entries with
    | nil => rfl
    | cons first rest =>
      dsimp only
      split
      · exact lootOf_giveTo ..
      · rfl
  · rfl

/-- **A roll that is counted leaves the loot as the other rolls read it.** -/
theorem lootOf_countLootRoll (m : RollMoment) (r : LootRoll) (loot : Loots.Loot) :
    lootOf (m.countLootRoll r loot).loot = lootOf loot := by
  have hcounted := (lootOf_countGreed (m := m) r (m.countNeed r ⟨loot, []⟩).1 _).trans
    (lootOf_countNeed (m := m) r ⟨loot, []⟩)
  unfold countLootRoll
  dsimp only
  split
  · exact (lootOf_modifyAt ..).trans hcounted
  · exact hcounted

/-! ## The roll -/

variable {loot : Loots.Loot}

/-- The best for need is given the item, and the votes for greed are not counted. -/
theorem awardedRight_of_need (hbest : m.Best r.roll .need guid)
    (hleft : (m.countNeed r ⟨loot, []⟩).1 ≠ 0) (hgives : (m.countNeed r ⟨loot, []⟩).2 =
      m.giveTo .need r.itemSlot (m.findPlayer guid) guid ⟨loot, []⟩) :
    m.AwardedRight r (m.countLootRoll r loot) := by
  have hgreed : ∀ o, (m.countGreed r (m.countNeed r ⟨loot, []⟩).1 o).2 = o := fun o => by
    unfold countGreed
    rw [if_neg fun h => hleft h.1]
  have hgiven : (m.countLootRoll r loot).given = [] ∨ (m.countLootRoll r loot).given = [guid] := by
    rw [given_countLootRoll, hgreed, hgives]
    exact given_giveTo ..
  refine ⟨?_, ?_, ?_, ?_⟩
  · rcases hgiven with h | h <;> simp [h]
  · intro _ guid' hmem
    rcases hgiven with h | h
    · rw [h] at hmem
      cases hmem
    · rw [h, List.mem_singleton] at hmem
      exact hmem ▸ hbest
  · exact fun hnone => absurd ⟨guid, hbest.votes⟩ hnone
  · exact fun hnone => absurd ⟨guid, hbest.votes⟩ hnone

theorem awardedRight_of_greed (h : r.roll.Consistent) (hnone : ¬ ∃ guid, m.Votes r.roll .need guid)
    (hneed : m.countNeed r ⟨loot, []⟩ = (0, ⟨loot, []⟩)) :
    m.AwardedRight r (m.countLootRoll r loot) := by
  have hgivenEq := given_countLootRoll (m := m) r loot
  rw [hneed] at hgivenEq
  rcases countGreed_spec (m := m) h ⟨loot, []⟩ with ⟨guid, hbest, -, -, hgives⟩ | ⟨hnoGreed, hgives⟩
  · have hgiven : (m.countLootRoll r loot).given = [] ∨ (m.countLootRoll r loot).given = [guid] := by
      rw [hgivenEq, hgives]
      exact given_giveTo ..
    refine ⟨?_, fun hsome => absurd hsome hnone, ?_, ?_⟩
    · rcases hgiven with h | h <;> simp [h]
    · intro _ _ guid' hmem
      rcases hgiven with h | h
      · rw [h] at hmem
        cases hmem
      · rw [h, List.mem_singleton] at hmem
        exact hmem ▸ hbest
    · exact fun _ hnoGreed => absurd ⟨guid, hbest.votes⟩ hnoGreed
  · have hgiven : (m.countLootRoll r loot).given = [] := by rw [hgivenEq, hgives]
    refine ⟨by simp [hgiven], fun hsome => absurd hsome hnone, fun _ hsome => absurd hsome hnoGreed,
      fun _ _ => ⟨hgiven, ?_⟩⟩
    intro item hitem
    unfold countLootRoll at hitem
    rw [hneed] at hitem
    dsimp only at hitem
    rw [hgives, if_pos ⟨rfl, rfl⟩] at hitem
    rw [Loots.Loot.itemAt_modifyAt, if_pos rfl] at hitem
    obtain ⟨old, -, rfl⟩ := Option.map_eq_some_iff.mp hitem
    rfl

/-- Where the first player of the list wins, somebody else or nobody is right, or he wins twice. -/
theorem not_awardedRight_of_defaultWins (h : r.roll.Consistent) (hdefault : m.DefaultWins r.roll) :
    ¬ m.AwardedRight r (m.countLootRoll r loot) := by
  intro hright
  have hgivenEq := given_countLootRoll (m := m) r loot
  rcases countNeed_spec (m := m) h ⟨loot, []⟩ with ⟨guid, hbest, -⟩ | ⟨hnone, hzero, -, hwins⟩
  · exact hdefault.absent ⟨guid, hbest.votes⟩
  obtain ⟨first, hfirst, hfound, hneed⟩ := hwins hdefault
  rw [hzero] at hgivenEq
  rcases countGreed_spec (m := m) h (m.countNeed r ⟨loot, []⟩).2 with
    ⟨guid, hbest, -, hhead, hgives⟩ | ⟨hnoGreed, hgives⟩
  · have hmem : first.1 ∈ (m.countLootRoll r loot).given := by
      rw [hgivenEq, hgives]
      rcases given_giveTo (m := m) .greed r.itemSlot (m.findConnectedPlayer guid) guid
        (m.countNeed r ⟨loot, []⟩).2 with heq | heq <;> rw [heq, hneed] <;> simp
    have hfirstBest := hright.greed hnone ⟨guid, hbest.votes⟩ first.1 hmem
    obtain rfl := hhead first hfirst hfirstBest
    -- he has a session, and so the votes for greed give him the item once more
    have hsession : (m.findConnectedPlayer first.1).any ConnectedPlayer.hasSession = true := by
      unfold findPlayer at hfound
      cases hplayer : m.findConnectedPlayer first.1 with
      | none =>
        rw [hplayer] at hfound
        cases hfound
      | some player =>
        rw [hplayer, Option.any_filter] at hfound
        simp only [Option.any_some, Bool.and_eq_true] at hfound
        exact hfound.2
    have honce := hright.once
    rw [hgivenEq, hgives, giveTo, if_pos hsession] at honce
    simp [hneed] at honce
  · have hnobody := (hright.nobody hnone hnoGreed).1
    rw [hgivenEq, hgives, hneed] at hnobody
    cases hnobody

/-- **A roll goes to the right player** exactly where the first player of the list does not win by default. -/
theorem awardedRight_iff (m : RollMoment) (r : LootRoll) (h : r.roll.Consistent) :
    (∀ o, m.countTheRoll r = some o → m.AwardedRight r o) ↔ r.loot.isSome → ¬ m.DefaultWins r.roll := by
  cases hloot : r.loot with
  | none => simp [countTheRoll, hloot]
  | some loot =>
    simp only [countTheRoll, hloot, Option.map_some, Option.some.injEq, forall_eq', Option.isSome_some,
      true_imp_iff]
    constructor
    · exact fun hright hdefault => not_awardedRight_of_defaultWins h hdefault hright
    · intro hdefault
      rcases countNeed_spec (m := m) h ⟨loot, []⟩ with ⟨guid, hbest, hleft, hgives⟩ | ⟨hnone, hzero, hsame, -⟩
      · exact awardedRight_of_need hbest hleft hgives
      · exact awardedRight_of_greed h hnone (Prod.ext hzero (hsame hdefault))

/-! ### A player who wanted the item is offline -/

def droppedItem : Loots.LootItem := ⟨25, [], none, 1, false, true, false, false, true, false, false⟩

/-- Player 1 passed, player 2 voted for need and player 3 for greed. -/
def threeVotes : LootRoll where
  roll := { Roll.new 9 with
    playerVote := [(1, .pass), (2, .need), (3, .greed)]
    totalPlayersRolling := 3, totalPass := 1, totalNeed := 1, totalGreed := 1 }
  itemSlot := 0
  loot := some { Loots.Loot.new 0 with items := [droppedItem], unlootedCount := 1 }

/-- Those of the guids are in the world, on the map that is allowed. -/
def inWorld (guids : List ℕ) : RollMoment where
  findConnectedPlayer guid := if guid ∈ guids then some ⟨true, 0, true⟩ else none
  allowedMap := some 0
  urand _ _ := 41
  canStore _ _ := true

theorem threeVotes_consistent : threeVotes.roll.Consistent :=
  { need := rfl, greed := rfl, pass := rfl, rolling := rfl, keys := by decide, small := by decide }

theorem not_awardedRight_threeVotes :
    ¬ ∀ o, (inWorld [1, 3]).countTheRoll threeVotes = some o → (inWorld [1, 3]).AwardedRight threeVotes o := by
  intro hright
  have hgiven : ∃ o, (inWorld [1, 3]).countTheRoll threeVotes = some o ∧ o.given = [1, 3] :=
    ⟨_, rfl, by decide⟩
  obtain ⟨o, ho, hgiven⟩ := hgiven
  have honce := (hright o ho).once
  rw [hgiven] at honce
  exact absurd honce (by decide)

theorem awardedRight_iff_threeVotes :
    threeVotes.roll.Consistent ∧
      ((∀ o, (inWorld [2, 3]).countTheRoll threeVotes = some o →
          (inWorld [2, 3]).AwardedRight threeVotes o) ↔
        threeVotes.loot.isSome → ¬ (inWorld [2, 3]).DefaultWins threeVotes.roll) :=
  ⟨threeVotes_consistent, awardedRight_iff (inWorld [2, 3]) threeVotes threeVotes_consistent⟩

end RollMoment

end Sunstrider.Groups
