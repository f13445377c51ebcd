import Sunstrider.Lib.Word

/-!
# The delay before a corpse can be reclaimed

`Player::GetCorpseReclaimDelay`, `UpdateCorpseReclaimDelay` and `CalculateCorpseReclaimDelay` of `Player.cpp`.
The delays stand in a table; the oftener a player has died lately, the later is the time at which its deaths
are forgotten, and the further on in the table is its delay.

Times are seconds.
-/

namespace Sunstrider.CorpseReclaim

open Lib (addU32 mulU32)

/-- The constants of `Player.cpp`: `DEATH_EXPIRE_STEP`, `MAX_DEATH_COUNT` and the table of the delays. -/
structure Constants where
  deathExpireStep : ℕ
  maxDeathCount : ℕ
  copseReclaimDelay : List ℕ
  step_pos : 0 < deathExpireStep
  count_pos : 0 < maxDeathCount
  length_eq : copseReclaimDelay.length = maxDeathCount
  /-- The product is an `int`. -/
  fits : maxDeathCount * deathExpireStep < 2 ^ 31
  /-- A delay is some time, and its milliseconds are an `int32`. -/
  delays : ∀ d ∈ copseReclaimDelay, 0 < d ∧ d * 1000 < 2 ^ 31

def constants : Constants where
  deathExpireStep := 5 * 60
  maxDeathCount := 3
  copseReclaimDelay := [30, 60, 120]
  step_pos := by decide
  count_pos := by decide
  length_eq := rfl
  fits := by decide
  delays := by decide

/-- `CONFIG_DEATH_CORPSE_RECLAIM_DELAY_PVP` and `CONFIG_DEATH_CORPSE_RECLAIM_DELAY_PVE`. -/
structure Config where
  corpseReclaimDelayPvp : Bool
  corpseReclaimDelayPve : Bool

/-- Deaths of a kind have a delay that grows. -/
def Config.delays (cfg : Config) (pvp : Bool) : Bool :=
  if pvp then cfg.corpseReclaimDelayPvp else cfg.corpseReclaimDelayPve

structure Corpse where
  ghostTime : ℕ
  /-- `CORPSE_RESURRECTABLE_PVP`. -/
  pvp : Bool

variable (c : Constants) (cfg : Config)

/-- The index of `GetCorpseReclaimDelay`: full periods 0, 1, and so on. -/
def periods (deathExpireTime now : ℕ) : ℕ :=
  if now < deathExpireTime - 1 then (deathExpireTime - 1 - now) / c.deathExpireStep % 2 ^ 32 else 0

/-- `GetCorpseReclaimDelay`. Reading outside the table has no answer. -/
def getCorpseReclaimDelay (deathExpireTime now : ℕ) (pvp : Bool) : Option ℕ :=
  if cfg.delays pvp then c.copseReclaimDelay[periods c deathExpireTime now]?
  else if pvp then c.copseReclaimDelay[0]?
  else some 0

/-- `UpdateCorpseReclaimDelay`: the new `m_deathExpireTime`. -/
def updateCorpseReclaimDelay (deathExpireTime now : ℕ) (pvp : Bool) : ℕ :=
  if !cfg.delays pvp then deathExpireTime
  else if now < deathExpireTime then
    -- full and partly periods 1, 2, and so on
    let count := addU32 ((deathExpireTime - now) / c.deathExpireStep) 1
    if count < c.maxDeathCount then now + mulU32 (addU32 count 1) c.deathExpireStep
    else now + c.maxDeathCount * c.deathExpireStep
  else now + c.deathExpireStep

/-- The index of `CalculateCorpseReclaimDelay` at a login. -/
def loadPeriods (deathExpireTime ghostTime : ℕ) (pvp : Bool) : ℕ :=
  if cfg.delays pvp then
    let count := (deathExpireTime - ghostTime) / c.deathExpireStep
    if c.maxDeathCount ≤ count then c.maxDeathCount - 1 else count
  else 0

/-- `CalculateCorpseReclaimDelay`, of a player with the flag for a death in a fight with players. It answers
milliseconds, or -1 for no delay. -/
def calculateCorpseReclaimDelay (load : Bool) (deathExpireTime now : ℕ) (pvpDeath : Bool)
    (corpse : Option Corpse) : Option ℤ :=
  let pvp := (corpse.map Corpse.pvp).getD pvpDeath
  if load then
    match corpse with
    | none => some (-1)
    | some corpse =>
      if deathExpireTime < corpse.ghostTime then some (-1)
      else
        (c.copseReclaimDelay[loadPeriods c cfg deathExpireTime corpse.ghostTime pvp]?).map fun delay =>
          let expectedTime := corpse.ghostTime + delay
          if expectedTime ≤ now then -1 else ((expectedTime - now) * 1000 : ℕ)
  else (getCorpseReclaimDelay c cfg deathExpireTime now pvp).map fun delay => (delay * 1000 : ℕ)

/-! ## Histories -/

/-- A player at a time, with its `m_deathExpireTime`. -/
structure Life where
  now : ℕ
  deathExpireTime : ℕ

/-- A death some seconds after the last event. -/
structure Death where
  elapsed : ℕ
  pvp : Bool

namespace Life

def step (s : Life) (d : Death) : Life where
  now := s.now + d.elapsed
  deathExpireTime := updateCorpseReclaimDelay c cfg s.deathExpireTime (s.now + d.elapsed) d.pvp

end Life

end Sunstrider.CorpseReclaim
