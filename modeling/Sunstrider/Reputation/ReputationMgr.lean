import Mathlib.Data.List.Sort
import Sunstrider.Lib.Map
import Sunstrider.Lib.Word

/-!
# A player's reputation

`ReputationMgr.cpp`, with the rows of `Faction.dbc` that it reads: the state of each listed faction
(standing, flags and what is still to be saved), the counters that cache what the states say, and the
player's rows of `character_reputation`.

An `int32` standing is an integer. The reputation rate, a float, is the function `rate`. Left out:
packets with `needSend`, forced reactions, and the quests that `Player::ReputationChanged` completes.
-/

namespace Sunstrider.Reputation

open Sunstrider.Lib (incU8 decU8)

/-! ## Ranks -/

inductive ReputationRank
  | hated
  | hostile
  | unfriendly
  | neutral
  | friendly
  | honored
  | revered
  | exalted
  deriving DecidableEq

namespace ReputationRank

def toNat : ReputationRank → ℕ
  | hated => 0
  | hostile => 1
  | unfriendly => 2
  | neutral => 3
  | friendly => 4
  | honored => 5
  | revered => 6
  | exalted => 7

instance : LE ReputationRank := ⟨fun a b => a.toNat ≤ b.toNat⟩

instance (a b : ReputationRank) : Decidable (a ≤ b) := inferInstanceAs (Decidable (_ ≤ _))

/-- `PointsInRank`. -/
def points : ReputationRank → ℤ
  | hated => 36000
  | hostile => 3000
  | unfriendly => 3000
  | neutral => 3000
  | friendly => 6000
  | honored => 12000
  | revered => 21000
  | exalted => 1000

end ReputationRank

def reputationCap : ℤ := 42999
def reputationBottom : ℤ := -42000

/-- The loop of `ReputationToRank`, over the ranks still to come. -/
def rankFrom (standing limit : ℤ) : List ReputationRank → ReputationRank
  | [] => .hated
  | r :: ranks =>
    if standing ≥ limit - r.points then r else rankFrom standing (limit - r.points) ranks

def reputationToRank (standing : ℤ) : ReputationRank :=
  rankFrom standing (reputationCap + 1)
    [.exalted, .revered, .honored, .friendly, .neutral, .unfriendly, .hostile, .hated]

/-! ## Flags -/

/-- `FactionFlags`. -/
abbrev Flags : Type := BitVec 8

namespace Flags

def visible : Flags := 0x01
def atWar : Flags := 0x02
def hidden : Flags := 0x04
def invisibleForced : Flags := 0x08
def peaceForced : Flags := 0x10
def inactive : Flags := 0x20
def rival : Flags := 0x40

end Flags

/-- `flags & flag`, for flags of any width. -/
def has {w : ℕ} (flags : BitVec w) (flag : Flags) : Bool := flags &&& flag.setWidth w != 0

/-! ## The faction table -/

/-- One of the four columns of base reputation of a faction. -/
structure BaseRep where
  raceMask : BitVec 32
  classMask : BitVec 32
  value : ℤ
  flags : BitVec 32
  deriving DecidableEq

structure FactionEntry where
  id : ℕ
  reputationListID : ℤ
  base : List BaseRep
  deriving DecidableEq

def FactionEntry.canHaveReputation (e : FactionEntry) : Bool := 0 ≤ e.reputationListID

/-- `sFactionStore`: the entries by their ids, which begin at 1. -/
structure FactionStore where
  entries : List FactionEntry
  sorted : entries.Pairwise fun e e' => e.id < e'.id
  pos : ∀ e ∈ entries, 0 < e.id

def FactionStore.lookupEntry (s : FactionStore) (id : ℕ) : Option FactionEntry :=
  s.entries.find? fun e => e.id = id

/-- The store, the player's race and class, and the reputation rate. -/
structure Env where
  store : FactionStore
  raceMask : BitVec 32
  classMask : BitVec 32
  /-- `floor(standing * RATE_REPUTATION_GAIN + 0.5)`. -/
  rate : ℤ → ℤ

namespace Env

/-- The column of base reputation that is for the player. -/
def baseRep (env : Env) (e : FactionEntry) : Option BaseRep :=
  e.base.find? fun b =>
    (b.raceMask &&& env.raceMask != 0 || b.raceMask == 0 && b.classMask != 0) &&
      (b.classMask &&& env.classMask != 0 || b.classMask == 0)

def getBaseReputation (env : Env) (e : FactionEntry) : ℤ :=
  match env.baseRep e with
  | some b => b.value
  | none => 0

/-- `GetDefaultStateFlags`, as the eight bits that a state keeps. -/
def getDefaultStateFlags (env : Env) (e : FactionEntry) : Flags :=
  match env.baseRep e with
  | some b => b.flags.setWidth 8
  | none => 0

def getBaseRank (env : Env) (e : FactionEntry) : ReputationRank :=
  reputationToRank (env.getBaseReputation e)

end Env

/-! ## One faction -/

structure FactionState where
  id : ℕ
  reputationListID : ℕ
  standing : ℤ
  flags : Flags
  needSave : Bool
  needDelete : Bool
  deriving DecidableEq

namespace FactionState

/-- `FACTION_FLAG_INVISIBLE_FORCED | FACTION_FLAG_HIDDEN`. -/
def isForced (f : FactionState) : Bool := has f.flags (.invisibleForced ||| .hidden)

/-- The faction is one of the player's own side, at which no war is declared. -/
def isPeaceful (f : FactionState) : Bool := has f.flags .peaceForced && !has f.flags .rival

/-- A flag is set or cleared, and the state is to be saved, if the flag changes. -/
def setFlag (f : FactionState) (flag : Flags) (on : Bool) : FactionState :=
  if has f.flags flag = on then f
  else { f with flags := if on then f.flags ||| flag else f.flags &&& ~~~flag, needSave := true }

def setVisible (f : FactionState) : FactionState :=
  if f.isForced then f else f.setFlag .visible true

/-- `SetVisible` makes the faction visible, which is counted. -/
def becomesVisible (f : FactionState) : Bool := !f.isForced && !has f.flags .visible

def setAtWar (f : FactionState) (atWar : Bool) : FactionState :=
  if atWar && f.isPeaceful then f else f.setFlag .atWar atWar

def setInactive (f : FactionState) (inactive : Bool) : FactionState :=
  if inactive && (f.isForced || !has f.flags .visible) then f else f.setFlag .inactive inactive

end FactionState

/-- The state that `Initialize` makes for an entry. -/
def Env.newFaction (env : Env) (e : FactionEntry) : FactionState where
  id := e.id
  reputationListID := e.reputationListID.toNat
  standing := 0
  flags := env.getDefaultStateFlags e
  needSave := true
  needDelete := false

/-! ## The manager -/

structure ReputationMgr where
  factions : AList fun _ : ℕ => FactionState := ∅
  visibleFactionCount : ℕ := 0
  honoredFactionCount : ℕ := 0
  reveredFactionCount : ℕ := 0
  exaltedFactionCount : ℕ := 0

/-- What `UpdateRankCounters` does to the counter of a rank. -/
def updateCounter (rank oldRank newRank : ReputationRank) (count : ℕ) : ℕ :=
  let count := if rank ≤ oldRank then decU8 count else count
  if rank ≤ newRank then incU8 count else count

namespace ReputationMgr

def updateRankCounters (st : ReputationMgr) (oldRank newRank : ReputationRank) : ReputationMgr :=
  { st with
    exaltedFactionCount := updateCounter .exalted oldRank newRank st.exaltedFactionCount
    reveredFactionCount := updateCounter .revered oldRank newRank st.reveredFactionCount
    honoredFactionCount := updateCounter .honored oldRank newRank st.honoredFactionCount }

/-- `++_visibleFactionCount`, if the faction has become visible. -/
def countVisible (st : ReputationMgr) (becomes : Bool) : ReputationMgr :=
  { st with
    visibleFactionCount :=
      if becomes then incU8 st.visibleFactionCount else st.visibleFactionCount }

/-- The state under a list id is written. -/
def put (st : ReputationMgr) (f : FactionState) : ReputationMgr :=
  { st with factions := st.factions.insert f.reputationListID f }

/-- `_factions.find(reputationListID)`. -/
def find (st : ReputationMgr) (reputationListID : ℤ) : Option FactionState :=
  if reputationListID < 0 then none else st.factions.lookup reputationListID.toNat

/-- One entry in the loop of `Initialize`. -/
def addFaction (env : Env) (st : ReputationMgr) (e : FactionEntry) : ReputationMgr :=
  if e.canHaveReputation then
    let newFaction := env.newFaction e
    ((st.countVisible (has newFaction.flags .visible)).updateRankCounters .hostile
      (env.getBaseRank e)).put newFaction
  else st

def initialized (env : Env) : ReputationMgr := env.store.entries.foldl (addFaction env) {}

def getReputation (env : Env) (st : ReputationMgr) (e : FactionEntry) : ℤ :=
  match st.find e.reputationListID with
  | some f => env.getBaseReputation e + f.standing
  | none => 0

/-! ## Standing -/

/-- The standing that `SetOneFactionReputation` comes to. -/
def clampReputation (standing : ℤ) : ℤ :=
  if standing > reputationCap then reputationCap
  else if standing < reputationBottom then reputationBottom
  else standing

/-- What `SetOneFactionReputation` does to the state. -/
def setStanding (f : FactionState) (baseRep standing : ℤ) : FactionState :=
  let f := { f with standing := standing - baseRep, needSave := true }
  let f := f.setVisible
  if reputationToRank standing ≤ .hostile then f.setAtWar true else f

def setOneFactionReputation (env : Env) (st : ReputationMgr) (e : FactionEntry) (standing : ℤ)
    (incremental : Bool) : ReputationMgr :=
  match st.find e.reputationListID with
  | none => st
  | some f =>
    let baseRep := env.getBaseReputation e
    let standing := if incremental then env.rate standing + f.standing + baseRep else standing
    let standing := clampReputation standing
    ((st.put (setStanding f baseRep standing)).countVisible f.becomesVisible).updateRankCounters
      (reputationToRank (f.standing + baseRep)) (reputationToRank standing)

def setReputation (env : Env) (st : ReputationMgr) (e : FactionEntry) (standing : ℤ)
    (incremental spillOverOnly : Bool) : ReputationMgr :=
  if spillOverOnly then st else st.setOneFactionReputation env e standing incremental

/-- `DropFactionReputation`. The states are looked up by their list ids. -/
def dropFactionReputation (st : ReputationMgr) (factionId : ℕ) : ReputationMgr :=
  match st.factions.lookup factionId with
  | none => st
  | some f => st.put { f with needDelete := true, standing := 0 }

def swapFactionReputation (env : Env) (st : ReputationMgr) (fromId toId : ℕ) : ReputationMgr :=
  match env.store.lookupEntry fromId, env.store.lookupEntry toId with
  | some fromEntry, some toEntry =>
    let fromRep := st.getReputation env fromEntry
    let toRep := st.getReputation env toEntry
    (st.setReputation env fromEntry toRep false false).setReputation env toEntry fromRep false false
  | _, _ => st

/-! ## Flags -/

/-- `SetVisible`, of an entry. -/
def setVisible (st : ReputationMgr) (e : FactionEntry) : ReputationMgr :=
  match st.find e.reputationListID with
  | none => st
  | some f => (st.put f.setVisible).countVisible f.becomesVisible

/-- The faction is one of the opposing team, in the second column. -/
def opposingTeam (env : Env) (e : FactionEntry) : Bool :=
  match e.base[1]? with
  | some b => b.raceMask &&& env.raceMask != 0 && b.value == reputationBottom
  | none => false

/-- `SetVisible`, of the faction of a template. -/
def setTemplateVisible (env : Env) (st : ReputationMgr) (faction : ℕ) : ReputationMgr :=
  if faction = 0 then st
  else
    match env.store.lookupEntry faction with
    | none => st
    | some e => if opposingTeam env e then st else st.setVisible e

def setAtWar (st : ReputationMgr) (repListID : ℕ) (on : Bool) : ReputationMgr :=
  match st.factions.lookup repListID with
  | none => st
  | some f => if f.isForced then st else st.put (f.setAtWar on)

def setInactive (st : ReputationMgr) (repListID : ℕ) (on : Bool) : ReputationMgr :=
  match st.factions.lookup repListID with
  | none => st
  | some f => st.put (f.setInactive on)

end ReputationMgr

/-! ## The database -/

/-- A row of `character_reputation`, without its key. -/
structure ReputationRow where
  standing : ℤ
  flags : BitVec 16
  deriving DecidableEq

/-- The player's rows of `character_reputation`, by their factions. -/
abbrev ReputationRows : Type := AList fun _ : ℕ => ReputationRow

namespace FactionState

variable (f : FactionState) (row : ReputationRow)

/-- A visible row: `SetVisible`, which checks that the faction is not kept invisible. -/
def loadVisible : FactionState := if has row.flags .visible then f.setVisible else f

/-- An inactive row: `SetInactive`, which checks that the faction is visible. -/
def loadInactive : FactionState := if has row.flags .inactive then f.setInactive true else f

/-- A row at war: `SetAtWar`, which checks that the faction is not kept at peace. A row that is not at
war takes the war off a visible faction. -/
def loadAtWar : FactionState :=
  if has row.flags .atWar then f.setAtWar true
  else if has f.flags .visible then f.setAtWar false
  else f

/-- War with a hostile faction. -/
def loadHostile (rank : ReputationRank) : FactionState :=
  if rank ≤ .hostile then f.setAtWar true else f

/-- There is nothing to save if the flags are as in the row. -/
def loadMark : FactionState :=
  if f.flags.setWidth 16 = row.flags then { f with needSave := false } else f

/-- What a row makes of the state of its faction, whose reputation is then `rank`. -/
def load (rank : ReputationRank) : FactionState :=
  let f := { f with standing := row.standing }
  ((((f.loadVisible row).loadInactive row).loadAtWar row).loadHostile rank).loadMark row

end FactionState

namespace ReputationMgr

/-- One row in the loop of `LoadFromDB`. Every listed faction has a state by then. -/
def loadRow (env : Env) (st : ReputationMgr) (row : Sigma fun _ : ℕ => ReputationRow) :
    ReputationMgr :=
  match env.store.lookupEntry row.1 with
  | none => st
  | some e =>
    match st.find e.reputationListID with
    | none => st
    | some f =>
      let baseRep := env.getBaseReputation e
      let newRank := reputationToRank (baseRep + row.2.standing)
      ((st.put (f.load row.2 newRank)).countVisible
        (has row.2.flags .visible && f.becomesVisible)).updateRankCounters
        (reputationToRank baseRep) newRank

def loadFromDB (env : Env) (rows : ReputationRows) : ReputationMgr :=
  rows.entries.foldl (loadRow env) (initialized env)

/-- What `SaveToDB` does to the rows of one faction. -/
def saveRow (rows : ReputationRows) (f : FactionState) : ReputationRows :=
  let key := f.id % 2 ^ 16
  if f.needDelete then rows.erase key
  else if f.needSave then rows.insert key ⟨f.standing, f.flags.setWidth 16⟩
  else rows

/-- The mark that `SaveToDB` takes off a state. -/
def clearMark (f : FactionState) : FactionState :=
  if f.needDelete then { f with needDelete := false }
  else if f.needSave then { f with needSave := false }
  else f

/-- The states in the order of the map. -/
def states (st : ReputationMgr) : List FactionState :=
  (st.factions.entries.map fun e => e.2).insertionSort fun f g =>
    f.reputationListID ≤ g.reputationListID

/-- The states for which `SaveToDB` writes to the database. -/
def writes (st : ReputationMgr) : List FactionState :=
  st.states.filter fun f => f.needDelete || f.needSave

/-- The rows after `SaveToDB`. -/
def savedRows (st : ReputationMgr) (rows : ReputationRows) : ReputationRows :=
  st.states.foldl saveRow rows

/-- The states after `SaveToDB`. -/
def saved (st : ReputationMgr) : ReputationMgr :=
  st.states.foldl (fun st f => st.put (clearMark f)) st

end ReputationMgr

/-! ## Calls -/

inductive Op
  | initialized
  | loadFromDB (rows : ReputationRows)
  | setReputation (factionId : ℕ) (standing : ℤ) (incremental spillOverOnly : Bool)
  | swapFactionReputation (fromId toId : ℕ)
  | dropFactionReputation (factionId : ℕ)
  | setVisible (factionId : ℕ)
  | setTemplateVisible (faction : ℕ)
  | setAtWar (repListID : ℕ) (on : Bool)
  | setInactive (repListID : ℕ) (on : Bool)

/-- One call. Callers look the entries up by their ids. -/
def step (env : Env) (st : ReputationMgr) : Op → ReputationMgr
  | .initialized => .initialized env
  | .loadFromDB rows => .loadFromDB env rows
  | .setReputation factionId standing incremental spillOverOnly =>
    match env.store.lookupEntry factionId with
    | none => st
    | some e => st.setReputation env e standing incremental spillOverOnly
  | .swapFactionReputation fromId toId => st.swapFactionReputation env fromId toId
  | .dropFactionReputation factionId => st.dropFactionReputation factionId
  | .setVisible factionId =>
    match env.store.lookupEntry factionId with
    | none => st
    | some e => st.setVisible e
  | .setTemplateVisible faction => st.setTemplateVisible env faction
  | .setAtWar repListID on => st.setAtWar repListID on
  | .setInactive repListID on => st.setInactive repListID on

/-! ## Sessions -/

/-- The call is one of a login. -/
def Op.isLogin : Op → Bool
  | .initialized => true
  | .loadFromDB _ => true
  | _ => false

/-- The manager of a player who is logged in, and the player's rows. -/
structure Session where
  mgr : ReputationMgr
  rows : ReputationRows

inductive SessionOp
  | call (op : Op) (stays : op.isLogin = false)
  | saveToDB

/-- The player logs in. -/
def login (env : Env) (rows : ReputationRows) : Session := ⟨.loadFromDB env rows, rows⟩

/-- One call, or `SaveToDB`. -/
def sessionStep (env : Env) (s : Session) : SessionOp → Session
  | .call op _ => ⟨step env s.mgr op, s.rows⟩
  | .saveToDB => ⟨s.mgr.saved, s.mgr.savedRows s.rows⟩

end Sunstrider.Reputation
