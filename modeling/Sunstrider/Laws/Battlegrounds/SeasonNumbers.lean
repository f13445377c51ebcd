import Mathlib.Algebra.Order.Group.Int
import Sunstrider.Battlegrounds.ArenaSeason
import Sunstrider.Laws.Battlegrounds.ArenaRating
import Sunstrider.Lib.Run

/-!
# The numbers of a season

A team in exact integers plays the same season (`ExactTeam`): each rating takes the changes one by one and stops
at 0. The team of the code has the same numbers as long as its own rating, which alone does not stop at 0, stays
where sixteen bits hold it.
-/

namespace Sunstrider.Battlegrounds.ArenaSeason

open Lib (AllAlong always_iff_allAlong_of)

variable {cfg : Config}

/-! ## A season in exact integers -/

/-- The numbers of a team, or of a member. -/
@[ext]
structure Record where
  rating : ℤ
  weekGames : ℕ
  weekWins : ℕ
  seasonGames : ℕ
  seasonWins : ℕ
  deriving DecidableEq

/-- A game, with the change of the rating. -/
def Record.play (r : Record) (mod : ℤ) (won : Bool) : Record :=
  ⟨max 0 (r.rating + mod), r.weekGames + 1, r.weekWins + won.toNat, r.seasonGames + 1, r.seasonWins + won.toNat⟩

def Record.clearWeek (r : Record) : Record := { r with weekGames := 0, weekWins := 0 }

/-- The wins are among the games, and the games of the week among those of the season. -/
structure Record.Counted (r : Record) : Prop where
  week : r.weekWins ≤ r.weekGames
  games : r.weekGames ≤ r.seasonGames
  wins : r.seasonWins ≤ r.seasonGames

@[ext]
structure ExactTeam where
  record : Record
  nonPlayedWeeks : UInt32
  /-- The members, by their guids. -/
  members : List (UInt32 × Record)
  deriving DecidableEq

/-- The change of a rating, as an integer. -/
def Config.ratingMod (cfg : Config) (rating : ℤ) (againstRating : UInt32) (won : Bool) : ℤ :=
  (cfg.getRatingMod (.ofNat rating.toNat) againstRating won).toInt

/-- The record of the first member with the guid is changed. -/
def modifyRecord (guid : UInt32) (f : Record → Record) : List (UInt32 × Record) → List (UInt32 × Record)
  | [] => []
  | m :: ms => if m.1 = guid then (m.1, f m.2) :: ms else m :: modifyRecord guid f ms

namespace ExactTeam

variable (e : ExactTeam)

def told (cfg : Config) : MatchEvent → ExactTeam
  | .wonAgainst against => { e with record := e.record.play (cfg.ratingMod e.record.rating against true) true }
  | .lostAgainst against => { e with record := e.record.play (cfg.ratingMod e.record.rating against false) false }
  | .memberWon guid against =>
    { e with members := modifyRecord guid (fun r => r.play (cfg.ratingMod r.rating against true) true) e.members }
  | .memberLost guid against =>
    { e with
      members :=
        modifyRecord guid (fun r => r.play (cfg.ratingMod e.record.rating against false) false) e.members }
  | .offlineMemberLost guid against =>
    { e with members := modifyRecord guid (fun r => r.play (cfg.ratingMod r.rating against false) false) e.members }

/-- What is above the least rating, or the value of the decay, is lost. -/
def decayed (cfg : Config) : ExactTeam :=
  if cfg.arenaDecayMinimumRating.toNat < e.record.rating ∧ cfg.arenaDecayConsecutiveWeeks ≤ e.nonPlayedWeeks then
    { e with
      record :=
        { e.record with
          rating := e.record.rating -
            min (e.record.rating - cfg.arenaDecayMinimumRating.toNat) cfg.arenaDecayValue.toNat } }
  else e

def step (cfg : Config) : TeamOp → ExactTeam
  | .told event => e.told cfg event
  | .updateArenaPointsHelper =>
    { e with nonPlayedWeeks := if e.record.weekGames < 10 then e.nonPlayedWeeks + 1 else 0 }
  | .handleDecay => e.decayed cfg
  | .finishWeek =>
    if e.record.weekGames = 0 then e
    else { e with record := e.record.clearWeek, members := e.members.map fun m => (m.1, m.2.clearWeek) }

end ExactTeam

/-! ## The numbers of the code -/

def ArenaTeamStats.record (stats : ArenaTeamStats) : Record :=
  ⟨stats.rating.toNat, stats.weekGames.toNat, stats.weekWins.toNat, stats.seasonGames.toNat,
    stats.seasonWins.toNat⟩

def ArenaTeamMember.record (m : ArenaTeamMember) : Record :=
  ⟨m.personalRating.toNat, m.weekGames.toNat, m.weekWins.toNat, m.seasonGames.toNat, m.seasonWins.toNat⟩

def ArenaTeam.exact (t : ArenaTeam) : ExactTeam :=
  ⟨t.stats.record, t.stats.nonPlayedWeeks, t.members.map fun m => (m.guid, m.record)⟩

/-- `GetRatingMod` changes a rating by 1 to 32, up for a win and down for a loss. -/
def Config.Rated (cfg : Config) : Prop :=
  ∀ own opponent won, ∃ k : ℤ, 1 ≤ k ∧ k ≤ 32 ∧ (cfg.getRatingMod own opponent won).toInt = if won then k else -k

/-- What is counted, and how high a rating is after so many games. -/
structure Record.Sound (r : Record) : Prop extends r.Counted where
  rating_nonneg : 0 ≤ r.rating
  games_le : r.seasonGames ≤ 65535
  rating_le : r.rating ≤ 65535 + 32 * r.seasonGames

structure ExactTeam.Sound (e : ExactTeam) : Prop where
  counted : e.record.Counted
  members : ∀ m ∈ e.members, m.2.Sound

/-- Fewer than 65536 games are played in the season, by the team and by each member. -/
def FewGames (e : ExactTeam) : TeamOp → Prop
  | .told (.wonAgainst _) | .told (.lostAgainst _) => e.record.seasonGames < 65535
  | .told (.memberWon guid _) | .told (.memberLost guid _) | .told (.offlineMemberLost guid _) =>
    ∀ m ∈ e.members, m.1 = guid → m.2.seasonGames < 65535
  | _ => True

/-- The rating of the team stays where sixteen bits hold it. -/
def Holds (cfg : Config) (e : ExactTeam) : TeamOp → Prop
  | .told (.wonAgainst against) => e.record.rating + cfg.ratingMod e.record.rating against true ≤ 65535
  | .told (.lostAgainst against) => 0 ≤ e.record.rating + cfg.ratingMod e.record.rating against false
  | _ => True

/-! ## Words -/

theorem toNat_toUInt32_emod (x : Int32) : (x.toUInt32.toNat : ℤ) = x.toInt % 2 ^ 32 := by
  have h := BitVec.toInt_eq_toNat_cond x.toBitVec
  have hint : x.toBitVec.toInt = x.toInt := rfl
  have hnat : x.toBitVec.toNat = x.toUInt32.toNat := rfl
  split at h <;> omega

theorem rating_add (r : UInt16) (x : Int32) :
    ((r + x.toUInt32.toUInt16).toNat : ℤ) = (r.toNat + x.toInt) % 65536 := by
  have h := toNat_toUInt32_emod x
  rw [UInt16.toNat_add, UInt32.toNat_toUInt16]
  omega

variable {x : Int32}

/-- A rating of sixteen bits takes a change exactly where it stays in them. -/
theorem rating_add_eq_iff (r : UInt16) (h : -32 ≤ x.toInt) :
    ((r + x.toUInt32.toUInt16).toNat : ℤ) = max 0 (r.toNat + x.toInt) ↔
      0 ≤ r.toNat + x.toInt ∧ r.toNat + x.toInt ≤ 65535 := by
  rw [rating_add]
  omega

theorem succ16 {n : UInt16} (h : n.toNat < 65535) : (n + 1).toNat = n.toNat + 1 := by
  exact Nat.mod_eq_of_lt (by show n.toNat + 1 < 65536; omega)

theorem succ32 {n : UInt32} (h : n.toNat < 65535) : (n + 1).toNat = n.toNat + 1 := by
  exact Nat.mod_eq_of_lt (by show n.toNat + 1 < 4294967296; omega)

/-! ## Teams -/

/-- **A team's game is counted exactly** just where its rating stays in sixteen bits. -/
theorem record_team_iff {stats : ArenaTeamStats} (h : stats.record.Counted)
    (hfew : stats.seasonGames.toNat < 65535) (hlow : -32 ≤ x.toInt) :
    (ArenaTeamStats.record { stats with
        rating := stats.rating + x.toUInt32.toUInt16, weekGames := stats.weekGames + 1
        seasonGames := stats.seasonGames + 1 } = stats.record.play x.toInt false ↔
      0 ≤ stats.rating.toNat + x.toInt ∧ stats.rating.toNat + x.toInt ≤ 65535) ∧
    (ArenaTeamStats.record { stats with
        rating := stats.rating + x.toUInt32.toUInt16, weekGames := stats.weekGames + 1
        weekWins := stats.weekWins + 1, seasonGames := stats.seasonGames + 1
        seasonWins := stats.seasonWins + 1 } = stats.record.play x.toInt true ↔
      0 ≤ stats.rating.toNat + x.toInt ∧ stats.rating.toNat + x.toInt ≤ 65535) := by
  have hgames : stats.weekGames.toNat ≤ stats.seasonGames.toNat := h.games
  have hweek : stats.weekWins.toNat ≤ stats.weekGames.toNat := h.week
  have hwins : stats.seasonWins.toNat ≤ stats.seasonGames.toNat := h.wins
  have hplayed : (stats.weekGames + 1).toNat = stats.weekGames.toNat + 1 := succ16 (by omega)
  have hwon : (stats.weekWins + 1).toNat = stats.weekWins.toNat + 1 := succ16 (by omega)
  have hseason : (stats.seasonWins + 1).toNat = stats.seasonWins.toNat + 1 := succ16 (by omega)
  rw [← rating_add_eq_iff stats.rating hlow]
  exact ⟨⟨fun heq => congrArg Record.rating heq, fun heq => Record.ext heq hplayed rfl (succ16 hfew) rfl⟩,
    ⟨fun heq => congrArg Record.rating heq, fun heq => Record.ext heq hplayed hwon (succ16 hfew) hseason⟩⟩

/-! ## Members -/

variable {m : ArenaTeamMember}

theorem modifyPersonalRating_rating (hm : m.personalRating.toNat < 2 ^ 30) (hlow : -32 ≤ x.toInt)
    (hhigh : x.toInt ≤ 32) :
    ((m.modifyPersonalRating x).personalRating.toNat : ℤ) = max 0 (m.personalRating.toNat + x.toInt) := by
  have hint : m.personalRating.toInt32.toInt = m.personalRating.toNat := by
    have h := BitVec.toInt_eq_toNat_cond m.personalRating.toBitVec
    have hcast : m.personalRating.toBitVec.toInt = m.personalRating.toInt32.toInt := rfl
    have hnat : m.personalRating.toBitVec.toNat = m.personalRating.toNat := rfl
    split at h <;> omega
  have hmod := toNat_toUInt32_emod x
  unfold ArenaTeamMember.modifyPersonalRating
  split
  next hneg =>
    show ((0 : UInt32).toNat : ℤ) = _
    rw [UInt32.toNat_zero]
    omega
  next hpos =>
    show ((m.personalRating + x.toUInt32).toNat : ℤ) = _
    rw [UInt32.toNat_add]
    omega

theorem modifyPersonalRating_eq (m : ArenaTeamMember) (x : Int32) :
    m.modifyPersonalRating x = { m with personalRating := (m.modifyPersonalRating x).personalRating } := by
  unfold ArenaTeamMember.modifyPersonalRating
  split <;> rfl

theorem Record.Sound.rating_lt (h : m.record.Sound) : m.personalRating.toNat < 2 ^ 30 := by
  have hrating : (m.personalRating.toNat : ℤ) ≤ 65535 + 32 * m.seasonGames.toNat := h.rating_le
  have hgames : m.seasonGames.toNat ≤ 65535 := h.games_le
  omega

/-- **A member's game is counted exactly**, lost or won. -/
theorem record_played (h : m.record.Sound) (hfew : m.seasonGames.toNat < 65535)
    (hlow : -32 ≤ x.toInt) (hhigh : x.toInt ≤ 32) :
    (m.modifyPersonalRating x).countGame.record = m.record.play x.toInt false ∧
      (m.modifyPersonalRating x).countGame.countWin.record = m.record.play x.toInt true := by
  have hrating := modifyPersonalRating_rating h.rating_lt hlow hhigh
  have hgames : m.weekGames.toNat ≤ m.seasonGames.toNat := h.games
  have hweek : m.weekWins.toNat ≤ m.weekGames.toNat := h.week
  have hwins : m.seasonWins.toNat ≤ m.seasonGames.toNat := h.wins
  have hplayed : (m.weekGames + 1).toNat = m.weekGames.toNat + 1 := succ32 (by omega)
  have hwon : (m.weekWins + 1).toNat = m.weekWins.toNat + 1 := succ32 (by omega)
  have hseason : (m.seasonWins + 1).toNat = m.seasonWins.toNat + 1 := succ32 (by omega)
  rw [modifyPersonalRating_eq m x]
  exact ⟨Record.ext hrating hplayed rfl (succ32 hfew) rfl, Record.ext hrating hplayed hwon (succ32 hfew) hseason⟩

variable {guid : UInt32}

theorem map_modifyMember {f : ArenaTeamMember → ArenaTeamMember} {g : Record → Record}
    (hguid : ∀ m, (f m).guid = m.guid) (ms : List ArenaTeamMember)
    (h : ∀ m ∈ ms, m.guid = guid → (f m).record = g m.record) :
    (modifyMember guid f ms).map (fun m => (m.guid, m.record)) =
      modifyRecord guid g (ms.map fun m => (m.guid, m.record)) := by
  induction ms with
  | nil => rfl
  | cons m ms ih =>
    simp only [modifyMember, modifyRecord, List.map_cons]
    by_cases hm : m.guid = guid
    · rw [if_pos hm, if_pos hm, List.map_cons, hguid, h m (List.mem_cons_self ..) hm]
    · rw [if_neg hm, if_neg hm, List.map_cons, ih fun m' hm' => h m' (List.mem_cons_of_mem _ hm')]

theorem mem_modifyRecord {f : Record → Record} {ms : List (UInt32 × Record)} {m : UInt32 × Record}
    (h : m ∈ modifyRecord guid f ms) : m ∈ ms ∨ ∃ m' ∈ ms, m'.1 = guid ∧ m.2 = f m'.2 := by
  induction ms with
  | nil => exact .inl h
  | cons m₀ ms ih =>
    simp only [modifyRecord] at h
    split at h
    · next hguid =>
      rcases List.mem_cons.mp h with rfl | hrest
      · exact .inr ⟨m₀, List.mem_cons_self .., hguid, rfl⟩
      · exact .inl (List.mem_cons_of_mem _ hrest)
    · rcases List.mem_cons.mp h with rfl | hrest
      · exact .inl (List.mem_cons_self ..)
      · rcases ih hrest with hold | ⟨m', hm', hguid, heq⟩
        · exact .inl (List.mem_cons_of_mem _ hold)
        · exact .inr ⟨m', List.mem_cons_of_mem _ hm', hguid, heq⟩

/-! ## What a season keeps -/

theorem Config.Rated.bounds (h : cfg.Rated) (own opponent : UInt32) (won : Bool) :
    -32 ≤ (cfg.getRatingMod own opponent won).toInt ∧ (cfg.getRatingMod own opponent won).toInt ≤ 32 := by
  obtain ⟨k, hlow, hhigh, heq⟩ := h own opponent won
  rw [heq]
  cases won
  · simp only [Bool.false_eq_true, if_false]
    omega
  · simp only [if_true]
    omega

variable {r : Record}

theorem Record.Counted.play (h : r.Counted) (mod : ℤ) (won : Bool) : (r.play mod won).Counted := by
  obtain ⟨hweek, hgames, hwins⟩ := h
  have hwon := Bool.toNat_le won
  constructor <;> simp only [Record.play] <;> omega

theorem Record.Sound.play (h : r.Sound) {mod : ℤ} (hmod : mod ≤ 32) (won : Bool)
    (hfew : r.seasonGames < 65535) : (r.play mod won).Sound := by
  have hrating := h.rating_le
  refine ⟨h.toCounted.play mod won, le_max_left _ _, hfew, ?_⟩
  simp only [Record.play]
  push_cast
  omega

theorem Record.Counted.clearWeek (h : r.Counted) : r.clearWeek.Counted :=
  ⟨le_rfl, Nat.zero_le _, h.wins⟩

theorem ExactTeam.Sound.modify {e : ExactTeam} (h : e.Sound) {mod : Record → ℤ} {won : Bool}
    (hmod : ∀ r, mod r ≤ 32) (hfew : ∀ m ∈ e.members, m.1 = guid → m.2.seasonGames < 65535) :
    ExactTeam.Sound { e with members := modifyRecord guid (fun r => r.play (mod r) won) e.members } := by
  refine ⟨h.counted, fun m hm => ?_⟩
  rcases mem_modifyRecord hm with hold | ⟨m', hm', hguid, heq⟩
  · exact h.members m hold
  · rw [heq]
    exact (h.members m' hm').play (hmod _) won (hfew m' hm' hguid)

/-- **What one step keeps**, in exact integers. -/
theorem ExactTeam.Sound.step {e : ExactTeam} (h : e.Sound) (hrated : cfg.Rated) {op : TeamOp}
    (hfew : FewGames e op) : (e.step cfg op).Sound := by
  cases op with
  | told event =>
    cases event with
    | wonAgainst against => exact ⟨h.counted.play _ _, h.members⟩
    | lostAgainst against => exact ⟨h.counted.play _ _, h.members⟩
    | memberWon guid against => exact h.modify (fun _ => (hrated.bounds _ _ _).2) hfew
    | memberLost guid against => exact h.modify (fun _ => (hrated.bounds _ _ _).2) hfew
    | offlineMemberLost guid against => exact h.modify (fun _ => (hrated.bounds _ _ _).2) hfew
  | updateArenaPointsHelper => exact ⟨h.counted, h.members⟩
  | handleDecay =>
    rw [ExactTeam.step, ExactTeam.decayed]
    split
    · exact ⟨⟨h.counted.week, h.counted.games, h.counted.wins⟩, h.members⟩
    · exact h
  | finishWeek =>
    rw [ExactTeam.step]
    split
    · exact h
    · refine ⟨h.counted.clearWeek, fun m hm => ?_⟩
      obtain ⟨m', hm', rfl⟩ := List.mem_map.mp hm
      have hold := h.members m' hm'
      exact ⟨hold.toCounted.clearWeek, hold.rating_nonneg, hold.games_le, hold.rating_le⟩

/-! ## The code and the exact integers -/

section Simulation

theorem ratingMod_team (t : ArenaTeam) (against : UInt32) (won : Bool) :
    cfg.ratingMod t.exact.record.rating against won =
      (cfg.getRatingMod t.stats.rating.toUInt32 against won).toInt := by
  have hrating : UInt32.ofNat (t.stats.rating.toNat : ℤ).toNat = t.stats.rating.toUInt32 := by
    apply UInt32.toNat_inj.mp
    simp
  rw [← hrating]
  rfl

theorem ratingMod_member (m : ArenaTeamMember) (against : UInt32) (won : Bool) :
    cfg.ratingMod m.record.rating against won = (cfg.getRatingMod m.personalRating against won).toInt := by
  have hrating : UInt32.ofNat (m.personalRating.toNat : ℤ).toNat = m.personalRating := by simp
  rw [Config.ratingMod, show m.record.rating = (m.personalRating.toNat : ℤ) from rfl, hrating]

variable {t : ArenaTeam} (h : t.exact.Sound) (hrated : cfg.Rated)

include h hrated

/-- A match of the team. Only the rating may differ. -/
theorem exact_team_iff {event : MatchEvent} (hteam : (∃ against, event = .wonAgainst against) ∨
      ∃ against, event = .lostAgainst against) (hfew : FewGames t.exact (.told event)) :
    (t.told cfg event).exact = t.exact.told cfg event ↔ Holds cfg t.exact (.told event) := by
  have hrating : 0 ≤ (t.stats.rating.toNat : ℤ) ∧ (t.stats.rating.toNat : ℤ) ≤ 65535 := by
    have := t.stats.rating.toNat_lt
    omega
  have hteam_rating : t.exact.record.rating = (t.stats.rating.toNat : ℤ) := rfl
  obtain ⟨against, rfl⟩ | ⟨against, rfl⟩ := hteam
  · obtain ⟨k, hlow, -, hmod⟩ := hrated t.stats.rating.toUInt32 against true
    rw [if_pos rfl] at hmod
    have hrecord := (record_team_iff (x := cfg.getRatingMod t.stats.rating.toUInt32 against true) h.counted hfew
      (by omega)).2
    have hholds : Holds cfg t.exact (.told (.wonAgainst against)) ↔
        0 ≤ (t.stats.rating.toNat : ℤ) + (cfg.getRatingMod t.stats.rating.toUInt32 against true).toInt ∧
          (t.stats.rating.toNat : ℤ) + (cfg.getRatingMod t.stats.rating.toUInt32 against true).toInt ≤ 65535 := by
      rw [Holds, ratingMod_team, hteam_rating, hmod]
      omega
    rw [hholds, ← hrecord, ← ratingMod_team]
    exact ⟨fun heq => congrArg ExactTeam.record heq, fun heq => ExactTeam.ext heq rfl rfl⟩
  · obtain ⟨k, hlow, hhigh, hmod⟩ := hrated t.stats.rating.toUInt32 against false
    rw [if_neg Bool.false_ne_true] at hmod
    have hrecord := (record_team_iff (x := cfg.getRatingMod t.stats.rating.toUInt32 against false) h.counted hfew
      (by omega)).1
    have hholds : Holds cfg t.exact (.told (.lostAgainst against)) ↔
        0 ≤ (t.stats.rating.toNat : ℤ) + (cfg.getRatingMod t.stats.rating.toUInt32 against false).toInt ∧
          (t.stats.rating.toNat : ℤ) + (cfg.getRatingMod t.stats.rating.toUInt32 against false).toInt ≤ 65535 := by
      rw [Holds, ratingMod_team, hteam_rating, hmod]
      omega
    rw [hholds, ← hrecord, ← ratingMod_team]
    exact ⟨fun heq => congrArg ExactTeam.record heq, fun heq => ExactTeam.ext heq rfl rfl⟩

theorem member_played (hfew : ∀ m ∈ t.exact.members, m.1 = guid → m.2.seasonGames < 65535)
    (hm : m ∈ t.members) (hguid : m.guid = guid) (own against : UInt32) (won : Bool) :
    (m.modifyPersonalRating (cfg.getRatingMod own against won)).countGame.record =
        m.record.play (cfg.getRatingMod own against won).toInt false ∧
      (m.modifyPersonalRating (cfg.getRatingMod own against won)).countGame.countWin.record =
        m.record.play (cfg.getRatingMod own against won).toInt true := by
  have hmem : (m.guid, m.record) ∈ t.exact.members := List.mem_map_of_mem hm
  obtain ⟨hlow, hhigh⟩ := hrated.bounds own against won
  exact record_played (h.members _ hmem) (hfew _ hmem hguid) hlow hhigh

theorem exact_member {event : MatchEvent} (hmember : (∃ guid against, event = .memberWon guid against) ∨
      (∃ guid against, event = .memberLost guid against) ∨ ∃ guid against, event = .offlineMemberLost guid against)
    (hfew : FewGames t.exact (.told event)) : (t.told cfg event).exact = t.exact.told cfg event := by
  have hguid : ∀ (m : ArenaTeamMember) (x : Int32), (m.modifyPersonalRating x).guid = m.guid := by
    intro m x
    rw [modifyPersonalRating_eq]
  obtain ⟨guid, against, rfl⟩ | ⟨guid, against, rfl⟩ | ⟨guid, against, rfl⟩ := hmember
  · refine ExactTeam.ext rfl rfl (map_modifyMember (fun m => ?_) t.members fun m hm hm' => ?_)
    · exact hguid m _
    · rw [(member_played h hrated hfew hm hm' _ _ _).2, ratingMod_member]
  · refine ExactTeam.ext rfl rfl (map_modifyMember (fun m => ?_) t.members fun m hm hm' => ?_)
    · exact hguid m _
    · rw [(member_played h hrated hfew hm hm' _ _ _).1, ratingMod_team]
  · refine ExactTeam.ext rfl rfl (map_modifyMember (fun m => ?_) t.members fun m hm hm' => ?_)
    · exact hguid m _
    · rw [(member_played h hrated hfew hm hm' _ _ _).1, ratingMod_member]

omit h hrated

/-- The decay takes no more than the rating has. -/
theorem exact_handleDecay (t : ArenaTeam) : (t.handleDecay cfg).exact = t.exact.decayed cfg := by
  have hrating : t.stats.rating.toUInt32.toNat = t.stats.rating.toNat := UInt16.toNat_toUInt32 _
  have hlt := t.stats.rating.toNat_lt
  have hcond : (t.stats.rating.toUInt32 > cfg.arenaDecayMinimumRating ∧
      t.stats.nonPlayedWeeks ≥ cfg.arenaDecayConsecutiveWeeks) ↔
        ((cfg.arenaDecayMinimumRating.toNat : ℤ) < t.exact.record.rating ∧
          cfg.arenaDecayConsecutiveWeeks ≤ t.exact.nonPlayedWeeks) := by
    refine and_congr ?_ Iff.rfl
    rw [gt_iff_lt, UInt32.lt_iff_toNat_lt, hrating]
    exact Nat.cast_lt.symm
  unfold ArenaTeam.handleDecay ExactTeam.decayed
  by_cases hdecays : t.stats.rating.toUInt32 > cfg.arenaDecayMinimumRating ∧
      t.stats.nonPlayedWeeks ≥ cfg.arenaDecayConsecutiveWeeks
  · rw [if_pos hdecays, if_pos (hcond.mp hdecays)]
    refine ExactTeam.ext (Record.ext ?_ rfl rfl rfl rfl) rfl rfl
    have hmin := UInt32.lt_iff_toNat_lt.mp hdecays.1
    have hdiff : (t.stats.rating.toUInt32 - cfg.arenaDecayMinimumRating).toNat =
        t.stats.rating.toNat - cfg.arenaDecayMinimumRating.toNat := by
      rw [UInt32.toNat_sub_of_le _ _ (UInt32.le_iff_toNat_le.mpr hmin.le), hrating]
    rw [hrating] at hmin
    obtain ⟨decay, hdecay⟩ : ∃ decay, (if t.stats.rating.toUInt32 - cfg.arenaDecayMinimumRating <
        cfg.arenaDecayValue then t.stats.rating.toUInt32 - cfg.arenaDecayMinimumRating
      else cfg.arenaDecayValue) = decay := ⟨_, rfl⟩
    have hvalue : decay.toNat =
        min (t.stats.rating.toNat - cfg.arenaDecayMinimumRating.toNat) cfg.arenaDecayValue.toNat := by
      rw [← hdecay, ← hdiff]
      split
      next hless => exact (min_eq_left (UInt32.lt_iff_toNat_lt.mp hless).le).symm
      next hmore => exact (min_eq_right (UInt32.le_iff_toNat_le.mp (UInt32.not_lt.mp hmore))).symm
    have hshort : decay.toUInt16.toNat = decay.toNat := by
      rw [UInt32.toNat_toUInt16]
      omega
    have hsub : (t.stats.rating - decay.toUInt16).toNat = t.stats.rating.toNat - decay.toNat := by
      rw [UInt16.toNat_sub_of_le _ _ (UInt16.le_iff_toNat_le.mpr (by omega)), hshort]
    dsimp only
    rw [hdecay]
    show ((t.stats.rating - decay.toUInt16).toNat : ℤ) = t.stats.rating.toNat -
      min (t.stats.rating.toNat - cfg.arenaDecayMinimumRating.toNat : ℤ) cfg.arenaDecayValue.toNat
    omega
  · rw [if_neg hdecays, if_neg fun hnot => hdecays (hcond.mpr hnot)]

theorem exact_updateArenaPointsHelper (t : ArenaTeam) :
    t.updateArenaPointsHelper.exact = t.exact.step cfg .updateArenaPointsHelper := by
  have hten : t.stats.weekGames < 10 ↔ t.exact.record.weekGames < 10 := UInt16.lt_iff_toNat_lt
  rw [ArenaTeam.updateArenaPointsHelper, ExactTeam.step]
  by_cases hfew : t.stats.weekGames < 10
  · rw [if_pos hfew, if_pos (hten.mp hfew)]
    rfl
  · rw [if_neg hfew, if_neg fun hnot => hfew (hten.mpr hnot)]
    rfl

theorem exact_finishWeek (t : ArenaTeam) : t.finishWeek.2.exact = t.exact.step cfg .finishWeek := by
  have hzero : t.stats.weekGames = 0 ↔ t.exact.record.weekGames = 0 := UInt16.toNat_inj.symm
  rw [ArenaTeam.finishWeek, ExactTeam.step]
  by_cases hnone : t.stats.weekGames = 0
  · rw [if_pos hnone, if_pos (hzero.mp hnone)]
  · rw [if_neg hnone, if_neg fun hnot => hnone (hzero.mpr hnot)]
    refine ExactTeam.ext rfl rfl ?_
    show List.map _ (List.map _ _) = List.map _ (List.map _ _)
    rw [List.map_map, List.map_map]
    rfl

include h hrated

/-- **One step of the code is the exact step** just where the rating of the team stays in sixteen bits. -/
theorem exact_step_iff {op : TeamOp} (hfew : FewGames t.exact op) :
    (t.step cfg op).exact = t.exact.step cfg op ↔ Holds cfg t.exact op := by
  cases op with
  | told event =>
    cases event with
    | wonAgainst against => exact exact_team_iff h hrated (.inl ⟨against, rfl⟩) hfew
    | lostAgainst against => exact exact_team_iff h hrated (.inr ⟨against, rfl⟩) hfew
    | memberWon guid against => exact iff_of_true (exact_member h hrated (.inl ⟨guid, against, rfl⟩) hfew) trivial
    | memberLost guid against =>
      exact iff_of_true (exact_member h hrated (.inr (.inl ⟨guid, against, rfl⟩)) hfew) trivial
    | offlineMemberLost guid against =>
      exact iff_of_true (exact_member h hrated (.inr (.inr ⟨guid, against, rfl⟩)) hfew) trivial
  | updateArenaPointsHelper => exact iff_of_true (exact_updateArenaPointsHelper t) trivial
  | handleDecay => exact iff_of_true (exact_handleDecay t) trivial
  | finishWeek => exact iff_of_true (exact_finishWeek t) trivial

end Simulation

/-! ## A participant that is offline -/

theorem modifyMember_eq_iff {f g : ArenaTeamMember → ArenaTeamMember} (ms : List ArenaTeamMember) :
    modifyMember guid f ms = modifyMember guid g ms ↔ ∀ m ∈ ms.find? (·.guid = guid), f m = g m := by
  induction ms with
  | nil => simp [modifyMember]
  | cons m ms ih =>
    simp only [modifyMember, List.find?_cons]
    by_cases hm : m.guid = guid
    · simp [hm]
    · simp [hm, ih]

/-- Two changes leave a personal rating the same just if they are the same, or both take all of it. -/
theorem modifyPersonalRating_eq_iff (h : m.record.Sound) {y : Int32}
    (hx : -32 ≤ x.toInt ∧ x.toInt ≤ 32) (hy : -32 ≤ y.toInt ∧ y.toInt ≤ 32) :
    (m.modifyPersonalRating x).countGame = (m.modifyPersonalRating y).countGame ↔
      x.toInt = y.toInt ∨ (m.personalRating.toNat + x.toInt ≤ 0 ∧ m.personalRating.toNat + y.toInt ≤ 0) := by
  have hxr := modifyPersonalRating_rating h.rating_lt hx.1 hx.2
  have hyr := modifyPersonalRating_rating h.rating_lt hy.1 hy.2
  constructor
  · intro heq
    have hrating := congrArg ArenaTeamMember.personalRating heq
    have hcast : ((m.modifyPersonalRating x).personalRating.toNat : ℤ) =
        (m.modifyPersonalRating y).personalRating.toNat := congrArg (fun r : UInt32 => (r.toNat : ℤ)) hrating
    omega
  · intro hsame
    have hcast : ((m.modifyPersonalRating x).personalRating.toNat : ℤ) =
        (m.modifyPersonalRating y).personalRating.toNat := by
      omega
    have hrating := UInt32.toNat_inj.mp (Nat.cast_inj.mp hcast)
    rw [modifyPersonalRating_eq m x, modifyPersonalRating_eq m y, hrating]

/-- The change by the rating of the team and that by the personal rating do the same to the member. -/
def SameLoss (cfg : Config) (t : ArenaTeam) (guid against : UInt32) : Prop :=
  ∀ m ∈ t.members.find? (·.guid = guid),
    (cfg.getRatingMod t.stats.rating.toUInt32 against false).toInt =
        (cfg.getRatingMod m.personalRating against false).toInt ∨
      (m.personalRating.toNat + (cfg.getRatingMod t.stats.rating.toUInt32 against false).toInt ≤ 0 ∧
        m.personalRating.toNat + (cfg.getRatingMod m.personalRating against false).toInt ≤ 0)

theorem memberLost_eq_iff {t : ArenaTeam} (h : t.exact.Sound) (hrated : cfg.Rated) (guid against : UInt32) :
    t.memberLost cfg guid against = t.offlineMemberLost cfg guid against ↔ SameLoss cfg t guid against := by
  have hmembers : t.memberLost cfg guid against = t.offlineMemberLost cfg guid against ↔
      (t.memberLost cfg guid against).members = (t.offlineMemberLost cfg guid against).members :=
    ⟨fun heq => congrArg ArenaTeam.members heq, fun heq => congrArg (fun ms => { t with members := ms }) heq⟩
  rw [hmembers]
  refine (modifyMember_eq_iff t.members).trans (forall₂_congr fun m hm => ?_)
  have hmem : (m.guid, m.record) ∈ t.exact.members :=
    List.mem_map_of_mem (List.mem_of_find?_eq_some (Option.mem_def.mp hm))
  exact modifyPersonalRating_eq_iff (h.members _ hmem) (hrated.bounds _ _ _) (hrated.bounds _ _ _)

/-! ## Runs -/

/-- The team of the code and that in exact integers, side by side. -/
def step₂ (cfg : Config) (x : ArenaTeam × ExactTeam) (op : TeamOp) : ArenaTeam × ExactTeam :=
  (x.1.step cfg op, x.2.step cfg op)

/-- The numbers of the code are the exact integers, and wins and games are counted in order. -/
structure Exact (x : ArenaTeam × ExactTeam) : Prop where
  eq : x.1.exact = x.2
  counted : x.2.record.Counted
  members : ∀ m ∈ x.2.members, m.2.Counted

/-- **The numbers of a season never wrap** just if the rating of the team stays in sixteen bits at each of its
matches. A loss is the same online and offline just if both changes are. -/
theorem numbers_exact_iff {t : ArenaTeam} (h : t.exact.Sound) (hrated : cfg.Rated) {ops : List TeamOp}
    (hfew : AllAlong (step₂ cfg) (fun x => FewGames x.2) (t, t.exact) ops) :
    ((∀ l, l <+: ops → Exact (l.foldl (step₂ cfg) (t, t.exact))) ↔
      AllAlong (step₂ cfg) (fun x => Holds cfg x.2) (t, t.exact) ops) ∧
    ∀ t' : ArenaTeam, t'.exact.Sound → ∀ guid against,
      t'.memberLost cfg guid against = t'.offlineMemberLost cfg guid against ↔ SameLoss cfg t' guid against := by
  refine ⟨?_, fun t' ht' guid against => memberLost_eq_iff ht' hrated guid against⟩
  refine always_iff_allAlong_of (I := fun x => x.1.exact = x.2 ∧ x.2.Sound) ?_ ?_ ?_ ⟨rfl, h⟩ hfew
  · rintro x op ⟨heq, hsound⟩ hgames hholds
    refine ⟨?_, hsound.step hrated hgames⟩
    rw [← heq] at hsound hgames hholds
    show (x.1.step cfg op).exact = x.2.step cfg op
    rw [← heq]
    exact (exact_step_iff hsound hrated hgames).mpr hholds
  · rintro x ⟨heq, hsound⟩
    exact ⟨heq, hsound.counted, fun m hm => (hsound.members m hm).toCounted⟩
  · rintro x op ⟨heq, hsound⟩ hgames hexact
    have hstep : (x.1.step cfg op).exact = x.2.step cfg op := hexact.eq
    rw [← heq] at hsound hgames hstep ⊢
    exact (exact_step_iff hsound hrated hgames).mp hstep

/-! ## A season -/

open ArenaRating in
/-- The changes of `GetRatingMod` are such changes, for any chance to win. -/
theorem rated_of_winChance {K : Type} [Field K] [LinearOrder K] [IsStrictOrderedRing K] [FloorRing K]
    (c : WinChance K) (alternate : Bool)
    (h : ∀ own opponent won, cfg.getRatingMod own opponent won = .ofInt (getRatingMod c alternate own opponent won)) :
    cfg.Rated := by
  intro own opponent won
  have hle : ⌊points c alternate own opponent⌋ ≤ 32 := by
    refine Int.cast_le.mp ((Int.floor_le (points c alternate own opponent)).trans ?_)
    have hpos := c.pos own opponent
    unfold points
    split
    · norm_num
    · push_cast
      linarith
  refine ⟨max 1 ⌊points c alternate own opponent⌋, le_max_left _ _, by omega, ?_⟩
  rw [h, getRatingMod_eq, Int32.toInt_ofInt]
  have hsize : (Int32.size : ℤ) = 4294967296 := rfl
  refine Int.bmod_eq_of_le ?_ ?_ <;> split <;> omega

/-- A server whose chances are the shares of the ratings. -/
def shareConfig : Config :=
  ⟨fun own opponent won => .ofInt (ArenaRating.getRatingMod ArenaRating.shareChance false own opponent won), false, 0,
    0, 0⟩

theorem rated_shareConfig : shareConfig.Rated := rated_of_winChance ArenaRating.shareChance false fun _ _ _ => rfl

/-- A new team with its captain, whose personal rating may be another one. -/
def newTeam (personalRating : UInt32) : ArenaTeam :=
  ⟨1, 2, 1, [⟨1, 0, 0, 0, 0, personalRating⟩], ⟨1500, 0, 0, 0, 0, 0⟩⟩

theorem sound_newTeam {personalRating : UInt32} (h : personalRating.toNat ≤ 65535) :
    (newTeam personalRating).exact.Sound := by
  refine ⟨⟨le_rfl, le_rfl, le_rfl⟩, fun m hm => ?_⟩
  obtain rfl := List.mem_singleton.mp hm
  exact ⟨⟨le_rfl, le_rfl, le_rfl⟩, Int.natCast_nonneg _, Nat.zero_le _, by
    show (personalRating.toNat : ℤ) ≤ 65535 + 32 * (0 : ℕ)
    omega⟩

/-- The first loss of a new team. -/
theorem numbers_exact_first : Exact ([TeamOp.told (.lostAgainst 1500)].foldl (step₂ shareConfig)
    (newTeam 1500, (newTeam 1500).exact)) := by
  have hfew : AllAlong (step₂ shareConfig) (fun x => FewGames x.2) (newTeam 1500, (newTeam 1500).exact)
      [.told (.lostAgainst 1500)] := ⟨show 0 < 65535 by decide, trivial⟩
  refine (numbers_exact_iff (sound_newTeam (by decide)) rated_shareConfig hfew).1.mpr ⟨?_, trivial⟩ _ List.prefix_rfl
  have hmod := (rated_shareConfig.bounds 1500 1500 false).1
  show (0 : ℤ) ≤ 1500 + (shareConfig.getRatingMod 1500 1500 false).toInt
  omega

/-- A new team loses to teams of its own rating until it has 12 left, and then to one of 12. -/
def losses : List TeamOp := (List.range 94).map fun i => .told (.lostAgainst (1500 - 16 * .ofNat i))

/-- The team has 65532 then, and not 0. A captain with 2000 loses 18 to a team of 2000 online, and 16 offline. -/
theorem not_numbers_exact :
    ¬Exact (losses.foldl (step₂ shareConfig) (newTeam 1500, (newTeam 1500).exact)) ∧
      (newTeam 2000).memberLost shareConfig 1 2000 ≠ (newTeam 2000).offlineMemberLost shareConfig 1 2000 := by
  refine ⟨fun h => ?_, by decide +kernel⟩
  have hrating := congrArg (fun e : ExactTeam => e.record.rating) h.eq
  revert hrating
  decide +kernel

end Sunstrider.Battlegrounds.ArenaSeason
