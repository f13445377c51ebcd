import Mathlib.Data.List.AList

/-!
# The character cache

`CharacterCache.cpp`: the entries of the existing characters by guid, and an index by name whose values
are pointers to these entries. A pointer tells the guid of the entry and the number of the allocation that
made it, so it dangles once the entry is gone, also where a later entry has the same guid.

Left out: the packet that tells the clients of a change, and the setters of the level, the account and
the guild, which nothing here reads.
-/

namespace Sunstrider.Cache

inductive Fault
  /-- A read through a pointer to an entry that was destroyed. -/
  | freed
  /-- An index past the end of an array. -/
  | outOfBounds
  deriving DecidableEq

abbrev maxArenaSlot : ℕ := 3

structure CharacterCacheEntry where
  guidLow : UInt32
  accountId : UInt32
  name : String
  race : UInt8
  playerClass : UInt8
  gender : UInt8
  level : UInt8
  guildId : UInt32
  arenaTeamId : Vector UInt32 maxArenaSlot
  deriving DecidableEq

/-- An entry with the number of its allocation. -/
structure Node where
  number : ℕ
  entry : CharacterCacheEntry
  deriving DecidableEq

/-- `CharacterCacheEntry*`. -/
structure Pointer where
  guid : UInt32
  number : ℕ
  deriving DecidableEq

structure CharacterCache where
  characterCacheStore : AList fun _ : UInt32 => Node
  characterCacheByNameStore : AList fun _ : String => Pointer
  /-- The allocations so far. -/
  allocated : ℕ
  deriving DecidableEq

/-- What `AddCharacterCacheEntry` is told of a character. -/
structure CharacterRow where
  guid : UInt32
  accountId : UInt32
  name : String
  gender : UInt8
  race : UInt8
  playerClass : UInt8
  level : UInt8
  guildId : UInt32
  deriving DecidableEq

/-- The fields that `AddCharacterCacheEntry` writes: all of them. -/
def CharacterRow.entry (row : CharacterRow) : CharacterCacheEntry where
  guidLow := row.guid
  accountId := row.accountId
  name := row.name
  race := row.race
  playerClass := row.playerClass
  gender := row.gender
  level := row.level
  guildId := row.guildId
  arenaTeamId := Vector.replicate maxArenaSlot 0

def playerUpdateDataRace : UInt8 := 0x02

def playerUpdateDataClass : UInt8 := 0x04

def playerUpdateDataGender : UInt8 := 0x08

def playerUpdateDataName : UInt8 := 0x10

namespace CharacterCache

def empty : CharacterCache := ⟨∅, ∅, 0⟩

/-- The entry that a pointer points at. -/
def deref (c : CharacterCache) (p : Pointer) : Except Fault CharacterCacheEntry :=
  match c.characterCacheStore.lookup p.guid with
  | some node => if node.number = p.number then .ok node.entry else .error .freed
  | none => .error .freed

/-- `AddCharacterCacheEntry`. The subscript makes the entry where there is none. -/
def addCharacterCacheEntry (c : CharacterCache) (row : CharacterRow) : CharacterCache :=
  match c.characterCacheStore.lookup row.guid with
  | some node =>
    { c with
      characterCacheStore := c.characterCacheStore.insert row.guid ⟨node.number, row.entry⟩
      characterCacheByNameStore :=
        c.characterCacheByNameStore.insert row.name ⟨row.guid, node.number⟩ }
  | none =>
    { characterCacheStore := c.characterCacheStore.insert row.guid ⟨c.allocated, row.entry⟩
      characterCacheByNameStore :=
        c.characterCacheByNameStore.insert row.name ⟨row.guid, c.allocated⟩
      allocated := c.allocated + 1 }

/-- `LoadCharacterCacheStorage`. The index by name is not cleared. -/
def loadCharacterCacheStorage (c : CharacterCache) (rows : List CharacterRow) : CharacterCache :=
  rows.foldl addCharacterCacheEntry { c with characterCacheStore := ∅ }

def deleteCharacterCacheEntry (c : CharacterCache) (guid : UInt32) (name : String) :
    CharacterCache :=
  { c with
    characterCacheStore := c.characterCacheStore.erase guid
    characterCacheByNameStore := c.characterCacheByNameStore.erase name }

def updateCharacterData (c : CharacterCache) (guid : UInt32) (mask : UInt8) (name : String)
    (gender race playerClass : UInt8) : CharacterCache :=
  match c.characterCacheStore.lookup guid with
  | none => c
  | some node =>
    let e := node.entry
    let e := if mask &&& playerUpdateDataRace ≠ 0 then { e with race := race } else e
    let e := if mask &&& playerUpdateDataClass ≠ 0 then { e with playerClass := playerClass } else e
    let e := if mask &&& playerUpdateDataGender ≠ 0 then { e with gender := gender } else e
    if mask &&& playerUpdateDataName ≠ 0 then
      let oldName := e.name
      { c with
        characterCacheStore :=
          c.characterCacheStore.insert guid ⟨node.number, { e with name := name }⟩
        characterCacheByNameStore :=
          (c.characterCacheByNameStore.erase oldName).insert name ⟨guid, node.number⟩ }
    else { c with characterCacheStore := c.characterCacheStore.insert guid ⟨node.number, e⟩ }

def updateCharacterArenaTeamId (c : CharacterCache) (guid : UInt32) (slot : UInt8)
    (arenaTeamId : UInt32) : Except Fault CharacterCache :=
  match c.characterCacheStore.lookup guid with
  | none => .ok c
  | some node =>
    if h : slot.toNat < maxArenaSlot then
      .ok { c with
        characterCacheStore := c.characterCacheStore.insert guid
          ⟨node.number,
            { node.entry with arenaTeamId := node.entry.arenaTeamId.set slot.toNat arenaTeamId h }⟩ }
    else .error .outOfBounds

def getCharacterCacheByGuid (c : CharacterCache) (guid : UInt32) : Option CharacterCacheEntry :=
  (c.characterCacheStore.lookup guid).map Node.entry

/-- `GetCharacterCacheByName`: the pointer of the index. -/
def getCharacterCacheByName (c : CharacterCache) (name : String) : Option Pointer :=
  c.characterCacheByNameStore.lookup name

/-- `GetCharacterGuidByName`. The empty guid is `none`. -/
def getCharacterGuidByName (c : CharacterCache) (name : String) : Except Fault (Option UInt32) :=
  match c.characterCacheByNameStore.lookup name with
  | none => .ok none
  | some p => do
    let e ← c.deref p
    .ok (some e.guidLow)

/-! ## Steps -/

/-- What the server does with the index. -/
inductive Op
  | load (rows : List CharacterRow)
  | add (row : CharacterRow)
  | update (guid : UInt32) (mask : UInt8) (name : String) (gender race playerClass : UInt8)
  | delete (guid : UInt32) (name : String)
  deriving DecidableEq

def step (c : CharacterCache) : Op → CharacterCache
  | .load rows => c.loadCharacterCacheStorage rows
  | .add row => c.addCharacterCacheEntry row
  | .update guid mask name gender race playerClass =>
    c.updateCharacterData guid mask name gender race playerClass
  | .delete guid name => c.deleteCharacterCacheEntry guid name

end CharacterCache

end Sunstrider.Cache
