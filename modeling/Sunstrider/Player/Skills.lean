import Sunstrider.Lib.Map

/-!
# Saved skills

`Player::_LoadSkills`, with what it asks of `DBCStores.cpp` and `ObjectMgr.cpp`. What `LearnSkillRewardedSpells` and
`SetSkill` do to a player are parameters. Update fields are numbered from `PLAYER_SKILL_INFO_1_1` on.
-/

namespace Sunstrider.Skills

def playerMaxSkills : ℕ := 127
abbrev maxSkillStep : ℕ := 16
def skillFistWeapons : UInt32 := 473
def skillCategoryArmor : UInt32 := 8
def skillCategoryLanguages : UInt32 := 10

/-! ## The tables of the game -/

structure SkillLineEntry where
  categoryId : UInt32

structure SkillTiersEntry where
  maxSkill : Fin maxSkillStep → UInt32

structure SkillRaceClassInfoEntry where
  skillId : UInt32
  raceMask : UInt32
  classMask : UInt32
  skillTier : UInt32

inductive SkillRangeType
  | language
  | level
  | mono
  | rank
  | none
  deriving DecidableEq

structure Stores where
  skillLineStore : UInt32 → Option SkillLineEntry
  skillTiersStore : UInt32 → Option SkillTiersEntry
  /-- In the order in which the entries of a skill are found. -/
  skillRaceClassInfoBySkill : List SkillRaceClassInfoEntry

namespace Stores

variable (stores : Stores)

def getSkillRaceClassInfo (skill : UInt32) (race class_ : UInt8) : Option SkillRaceClassInfoEntry :=
  stores.skillRaceClassInfoBySkill.find? fun entry =>
    entry.skillId = skill ∧
      ¬(entry.raceMask ≠ 0 ∧ entry.raceMask &&& (1 <<< (race - 1).toUInt32) = 0) ∧
      ¬(entry.classMask ≠ 0 ∧ entry.classMask &&& (1 <<< (class_ - 1).toUInt32) = 0)

def getSkillRangeType (rcEntry : SkillRaceClassInfoEntry) : SkillRangeType :=
  match stores.skillLineStore rcEntry.skillId with
  | none => .none
  | some skill =>
    if (stores.skillTiersStore rcEntry.skillTier).isSome then .rank
    else if skill.categoryId = skillCategoryArmor then .mono
    else if skill.categoryId = skillCategoryLanguages then .language
    else .level

end Stores

/-- The loop over the steps of a tier: `skillStep` is both what is looked at and what is found. -/
def SkillTiersEntry.stepLoop (skillTier : SkillTiersEntry) (max : UInt16) (skillStep : Fin maxSkillStep) :
    List (Fin maxSkillStep) → UInt16
  | [] => skillStep.val.toUInt16
  | i :: rest =>
    if skillTier.maxSkill skillStep = max.toUInt32 then (i.val + 1).toUInt16
    else skillTier.stepLoop max skillStep rest

/-! ## A row -/

/-- The columns of `character_skills`. -/
structure SkillRow where
  skill : UInt32
  value : UInt32
  max : UInt32

/-- A row that is loaded, with the tier of its skill. -/
structure SavedSkill where
  skill : UInt16
  value : UInt16
  max : UInt16
  skillTier : UInt32
  deriving DecidableEq

inductive ReadRow
  /-- The skill does not exist, or not for the race and class. -/
  | incompatible
  /-- The value is 0, and the row is deleted. -/
  | valueless (skill : UInt16)
  | valid (saved : SavedSkill)
  deriving DecidableEq

def Stores.readRow (stores : Stores) (race class_ : UInt8) (row : SkillRow) : ReadRow :=
  let skill := row.skill.toUInt16
  match stores.getSkillRaceClassInfo skill.toUInt32 race class_ with
  | none => .incompatible
  | some rcEntry =>
    -- set fixed skill ranges
    let (value, max) :=
      match stores.getSkillRangeType rcEntry with
      | .language => (300, 300)
      | .mono => (1, 1)
      | _ => (row.value.toUInt16, row.max.toUInt16)
    if value = 0 then .valueless skill else .valid ⟨skill, value, max, rcEntry.skillTier⟩

/-- The profession tier. -/
def Stores.skillStep (stores : Stores) (saved : SavedSkill) : UInt16 :=
  match stores.skillTiersStore saved.skillTier with
  | none => 0
  | some skillTier => skillTier.stepLoop saved.max 0 (List.finRange maxSkillStep)

/-! ## Loading -/

inductive SkillUpdateState
  | unchanged
  | changed
  | new
  | deleted
  deriving DecidableEq

structure SkillStatusData where
  pos : UInt8
  uState : SkillUpdateState
  deriving DecidableEq

structure Player where
  race : UInt8
  class_ : UInt8
  uint32Values : ℕ → UInt32
  skillStatus : AList fun _ : UInt32 => SkillStatusData
  /-- The rows that are deleted from the database. -/
  deletedRows : List UInt16

def makePair32 (l h : UInt16) : UInt32 := l.toUInt32 ||| (h.toUInt32 <<< 16)

namespace Player

variable (p : Player)

/-- `SetUInt32Value` of `PLAYER_SKILL_INDEX(x)` and the two fields behind it. -/
def setSkillFields (x : ℕ) (skill value bonus : UInt32) : Player :=
  { p with
    uint32Values := fun index =>
      if index = x * 3 then skill else if index = x * 3 + 1 then value
      else if index = x * 3 + 2 then bonus else p.uint32Values index }

/-- `SkillStatusMap::insert`, which leaves an entry as it is. -/
def insertSkillStatus (skill : UInt32) (data : SkillStatusData) : Player :=
  if skill ∈ p.skillStatus then p else { p with skillStatus := p.skillStatus.insert skill data }

def hasSkill (skill : UInt32) : Bool :=
  if skill = 0 then false
  else (p.skillStatus.lookup skill).any fun data => data.uState ≠ .deleted

end Player

structure Loading where
  player : Player
  count : ℕ
  loadedSkillValues : AList fun _ : UInt32 => UInt32

namespace Loading

def delete (s : Loading) (skill : UInt16) : Loading :=
  { s with player := { s.player with deletedRows := s.player.deletedRows ++ [skill] } }

def put (stores : Stores) (s : Loading) (saved : SavedSkill) : Loading where
  player :=
    (s.player.setSkillFields s.count (makePair32 saved.skill (stores.skillStep saved))
      (makePair32 saved.value saved.max) 0).insertSkillStatus saved.skill.toUInt32 ⟨s.count.toUInt8, .unchanged⟩
  count := s.count + 1
  loadedSkillValues := s.loadedSkillValues.insert saved.skill.toUInt32 saved.value.toUInt32

/-- The loop over the rows. -/
def loadRows (stores : Stores) : List SkillRow → Loading → Loading
  | [], s => s
  | row :: rows, s =>
    match stores.readRow s.player.race s.player.class_ row with
    | .incompatible => loadRows stores rows s
    | .valueless skill => loadRows stores rows (s.delete skill)
    | .valid saved =>
      let s := s.put stores saved
      -- client limit
      if playerMaxSkills ≤ s.count then s else loadRows stores rows s

end Loading

structure Env extends Stores where
  learnSkillRewardedSpells : UInt32 → UInt32 → Player → Player
  /-- `SetSkill(SKILL_FIST_WEAPONS, 0, GetSkillValue(SKILL_UNARMED), GetMaxSkillValueForLevel())`. -/
  setFistWeapons : Player → Player

/-- `for (; count < PLAYER_MAX_SKILLS; ++count)`. -/
def Player.clearFrom (p : Player) (count : ℕ) : Player :=
  (List.range' count (playerMaxSkills - count)).foldl (fun p x => p.setSkillFields x 0 0 0) p

/-- `_LoadSkills`. The order in which rewarded spells are learned is not specified. -/
def Env.loadSkills (env : Env) (rows : List SkillRow) (p : Player) : Player :=
  let s := Loading.loadRows env.toStores rows ⟨p, 0, ∅⟩
  let p := s.loadedSkillValues.entries.foldl (fun p e => env.learnSkillRewardedSpells e.1 e.2 p) s.player
  let p := p.clearFrom s.count
  if p.hasSkill skillFistWeapons then env.setFistWeapons p else p

end Sunstrider.Skills
