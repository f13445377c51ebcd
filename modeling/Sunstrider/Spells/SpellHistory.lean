import Sunstrider.Lib.Word
import Sunstrider.Lib.Map
import Sunstrider.Lib.Run

/-!
# Cooldowns of a unit

`SpellHistory.cpp`: the cooldown of each spell, and for each spell category a pointer to the entry that
put it on cooldown. A pointer names the node it was made for, by its key and by the serial number of its
allocation, and reading through it after that node was erased is the fault `freedEntry`.

Points in time and durations are numbers of clock ticks. What the owner is asked (its spells, its
modifiers, its player) is an input of each call, since it changes between calls.

Left out: packets other than those of `WritePacket`, and the school lockouts and global cooldowns, which
no cooldown table reads.
-/

namespace Sunstrider.Spells

open Sunstrider.Lib (toInt32 toU32)

inductive Fault
  /-- A read through a pointer whose entry was erased. -/
  | freedEntry
  /-- `AssertSpellInfo` of an unknown spell. -/
  | assertion
  deriving DecidableEq

/-! ## What the cooldowns read -/

/-- `std::chrono::milliseconds`. -/
def milliseconds (n : ℕ) : ℕ := n * 1000000

/-- `std::chrono::seconds`. -/
def seconds (n : ℕ) : ℕ := milliseconds (n * 1000)

/-- `InfinityCooldownDelay`, one `MONTH`. -/
def infinityCooldownDelay : ℕ := seconds (30 * 24 * 60 * 60)

/-- `10 * MINUTE * IN_MILLISECONDS`. -/
def tenMinutes : ℕ := 10 * 60 * 1000

/-- What is read of a `SpellInfo`. -/
structure SpellInfo where
  id : ℕ
  recoveryTime : ℕ
  categoryRecoveryTime : ℕ
  /-- `GetCategory()`. -/
  category : ℕ
  schoolMask : BitVec 32
  /-- `IsCooldownStartedOnEvent()`. -/
  cooldownStartedOnEvent : Bool
  /-- `PreventionType == SPELL_PREVENTION_TYPE_SILENCE`. -/
  preventionTypeSilence : Bool
  /-- `IsAutoRepeatRangedSpell()`. -/
  autoRepeatRangedSpell : Bool
  /-- `SPELL_ATTR6_IGNORE_CATEGORY_COOLDOWN_MODS`. -/
  ignoreCategoryCooldownMods : Bool
  deriving DecidableEq

/-- One of the `Spells` of an item template. -/
structure ItemSpell where
  spellId : ℕ
  spellCooldown : ℤ
  spellCategory : ℕ
  spellCategoryCooldown : ℤ
  deriving DecidableEq

/-- The stores of spells and of item templates. -/
structure Env where
  getSpellInfo : ℕ → Option SpellInfo
  getItemTemplate : ℕ → Option (List ItemSpell)

def Env.assertSpellInfo (env : Env) (spellId : ℕ) : Except Fault SpellInfo :=
  match env.getSpellInfo spellId with
  | some spellInfo => .ok spellInfo
  | none => .error .assertion

/-- What the owner answers at a call. -/
structure Owner where
  /-- `ToPlayer()`. -/
  isPlayer : Bool
  /-- `GetPlayerOwner()`. -/
  hasPlayerOwner : Bool
  /-- The known spells, in the order of the set. -/
  knownSpells : List ℕ
  /-- `GetAttackTime(RANGED_ATTACK)`. -/
  attackTime : ℤ
  /-- `ApplySpellMod(spellId, SPELLMOD_COOLDOWN, …)` of the spell mod owner. -/
  applyCooldownMod : ℕ → ℤ → ℤ
  /-- `GetTotalAuraModifier(SPELL_AURA_MOD_COOLDOWN)`. -/
  cooldownMod : ℤ
  /-- Whether that modifier is for the spell: no player owner, or one that has it. -/
  modsSpell : ℕ → Bool

/-- A call's moment: the game time, and what the owner answers then. -/
structure Moment where
  now : ℕ
  owner : Owner

/-! ## The tables -/

structure CooldownEntry where
  spellId : ℕ := 0
  cooldownEnd : ℕ := 0
  itemId : ℕ := 0
  categoryId : ℕ := 0
  categoryEnd : ℕ := 0
  onHold : Bool := false
  deriving DecidableEq

/-- An element of `_spellCooldowns`, with the number of its allocation. -/
structure Node where
  serial : ℕ
  entry : CooldownEntry
  deriving DecidableEq

/-- `CooldownEntry*`: the node that was made under that key with that number. -/
structure EntryPtr where
  spellId : ℕ
  serial : ℕ
  deriving DecidableEq

structure SpellHistory where
  spellCooldowns : AList fun _ : ℕ => Node := ∅
  spellCooldownsBeforeDuel : AList fun _ : ℕ => CooldownEntry := ∅
  categoryCooldowns : AList fun _ : ℕ => EntryPtr := ∅
  /-- The number of the next allocation. -/
  nextSerial : ℕ := 0

/-- An element of `_spellCooldowns`, as an iterator gives it. -/
abbrev Iterator : Type := Sigma fun _ : ℕ => Node

namespace SpellHistory

/-- `_spellCooldowns[spellId]`: the node of the key, or the one that is made for it. -/
def nodeAt (h : SpellHistory) (spellId : ℕ) : Node :=
  (h.spellCooldowns.lookup spellId).getD ⟨h.nextSerial, {}⟩

/-- `_spellCooldowns[spellId] = entry`. -/
def write (h : SpellHistory) (spellId : ℕ) (entry : CooldownEntry) : SpellHistory :=
  { h with
    spellCooldowns := h.spellCooldowns.insert spellId { h.nodeAt spellId with entry := entry }
    nextSerial := h.nextSerial + 1 }

/-- `_categoryCooldowns[categoryId] = &_spellCooldowns[spellId]`. -/
def point (h : SpellHistory) (categoryId spellId : ℕ) : SpellHistory :=
  { h with
    categoryCooldowns :=
      h.categoryCooldowns.insert categoryId ⟨spellId, (h.nodeAt spellId).serial⟩ }

/-- The entry behind a pointer. -/
def deref (h : SpellHistory) (p : EntryPtr) : Except Fault CooldownEntry :=
  match h.spellCooldowns.lookup p.spellId with
  | some node => if node.serial = p.serial then .ok node.entry else .error .freedEntry
  | none => .error .freedEntry

def eraseCooldown (h : SpellHistory) (itr : Iterator) : SpellHistory :=
  { h with
    categoryCooldowns := h.categoryCooldowns.erase itr.2.entry.categoryId
    spellCooldowns := h.spellCooldowns.erase itr.1 }

/-- The loop that erases the cooldowns that meet a predicate. -/
def eraseWhere (h : SpellHistory) (predicate : ℕ → CooldownEntry → Bool) : SpellHistory :=
  h.spellCooldowns.entries.foldl
    (fun h itr => if predicate itr.1 itr.2.entry then h.eraseCooldown itr else h) h

/-! ## Adding -/

/-- The entry is written, and its category points to it. -/
def record (h : SpellHistory) (spellId : ℕ) (entry : CooldownEntry) : SpellHistory :=
  let h := h.write spellId entry
  if entry.categoryId ≠ 0 then h.point entry.categoryId spellId else h

def addCooldown (h : SpellHistory) (spellId itemId cooldownEnd categoryId categoryEnd : ℕ)
    (onHold : Bool) : SpellHistory :=
  h.record spellId ⟨spellId, cooldownEnd, itemId, categoryId, categoryEnd, onHold⟩

/-- `AddCooldown`, of a duration. -/
def addCooldownFor (h : SpellHistory) (now spellId itemId cooldownDuration : ℕ) : SpellHistory :=
  h.addCooldown spellId itemId (now + cooldownDuration) 0 now false

end SpellHistory

/-- The answer of `GetCooldownDurations`. -/
structure Durations where
  cooldown : ℤ
  categoryId : ℕ
  categoryCooldown : ℤ

/-- What the item's own table says of the spell. -/
def Env.itemDurations (env : Env) (spellInfo : SpellInfo) (itemId : ℕ) : Durations :=
  let proto := if itemId ≠ 0 then env.getItemTemplate itemId else none
  match (proto.getD []).find? fun s => s.spellId = spellInfo.id with
  | some s => ⟨s.spellCooldown, s.spellCategory, s.spellCategoryCooldown⟩
  | none => ⟨-1, 0, -1⟩

def Env.getCooldownDurations (env : Env) (spellInfo : SpellInfo) (itemId : ℕ) : Durations :=
  let tmp := env.itemDurations spellInfo itemId
  if tmp.cooldown < 0 ∧ tmp.categoryCooldown < 0 then
    ⟨toInt32 spellInfo.recoveryTime, spellInfo.category, toInt32 spellInfo.categoryRecoveryTime⟩
  else tmp

/-- The ends that `StartCooldown` comes to: `recTime` and `catrecTime`. -/
structure Ends where
  recTime : ℕ
  catrecTime : ℕ
  deriving DecidableEq

/-- The ends of an infinite cooldown. -/
def onHoldEnds (now : ℕ) (d : Durations) : Ends :=
  let catrecTime := if d.categoryCooldown > 0 then now + infinityCooldownDelay else now
  ⟨if d.cooldown > 0 then now + infinityCooldownDelay else catrecTime, catrecTime⟩

/-- The durations after the item's attack time and the modifiers, at least 0. -/
def Moment.modified (m : Moment) (spellInfo : SpellInfo) (d : Durations) : Durations :=
  let cooldown :=
    if d.cooldown ≤ 0 ∧ d.categoryCooldown ≤ 0 ∧
        (d.categoryId = 76 ∨ spellInfo.autoRepeatRangedSpell ∧ spellInfo.id ≠ 75) then
      m.owner.attackTime
    else d.cooldown
  let cooldown := if cooldown ≥ 0 then m.owner.applyCooldownMod spellInfo.id cooldown else cooldown
  let categoryCooldown :=
    if d.categoryCooldown ≥ 0 ∧ ¬ spellInfo.ignoreCategoryCooldownMods then
      m.owner.applyCooldownMod spellInfo.id d.categoryCooldown
    else d.categoryCooldown
  let cooldown :=
    if m.owner.modsSpell spellInfo.id then cooldown + m.owner.cooldownMod * 1000 else cooldown
  ⟨max cooldown 0, d.categoryId, max categoryCooldown 0⟩

/-- The ends of a cooldown of those durations. Where neither is left, both are now. -/
def timedEnds (now : ℕ) (d : Durations) : Ends :=
  let catrecTime :=
    if d.categoryCooldown ≠ 0 then now + milliseconds d.categoryCooldown.toNat else now
  ⟨if d.cooldown ≠ 0 then now + milliseconds d.cooldown.toNat else catrecTime, catrecTime⟩

/-- The ends of the cooldown that a spell starts. -/
def Env.startEnds (env : Env) (m : Moment) (spellInfo : SpellInfo) (itemId : ℕ) (onHold : Bool) :
    Ends :=
  let d := env.getCooldownDurations spellInfo itemId
  if onHold then onHoldEnds m.now d else timedEnds m.now (m.modified spellInfo d)

namespace SpellHistory

def startCooldown (env : Env) (m : Moment) (spellInfo : SpellInfo) (itemId : ℕ) (onHold : Bool)
    (h : SpellHistory) : SpellHistory :=
  let ends := env.startEnds m spellInfo itemId onHold
  if ends.recTime ≠ m.now then
    h.addCooldown spellInfo.id itemId ends.recTime
      (env.getCooldownDurations spellInfo itemId).categoryId ends.catrecTime onHold
  else h

/-- The spell that has put the category on cooldown, as `SendCooldownEvent` looks for it: another than
the spell itself. -/
def categorySpell (env : Env) (m : Moment) (spellInfo : SpellInfo) (itemId : ℕ) (h : SpellHistory) :
    Except Fault (Option ℕ) :=
  if m.owner.hasPlayerOwner then
    match h.categoryCooldowns.lookup (env.getCooldownDurations spellInfo itemId).categoryId with
    | none => .ok none
    | some p => do
      let entry ← h.deref p
      .ok (if entry.spellId ≠ spellInfo.id then some entry.spellId else none)
  else .ok none

/-- The spells whose cooldown `SendCooldownEvent` starts. -/
def eventSpells (env : Env) (m : Moment) (spellInfo : SpellInfo) (itemId : ℕ) (h : SpellHistory) :
    Except Fault (List SpellInfo) := do
  match ← h.categorySpell env m spellInfo itemId with
  | none => .ok [spellInfo]
  | some spellId => do
    let other ← env.assertSpellInfo spellId
    .ok [other, spellInfo]

def sendCooldownEvent (env : Env) (m : Moment) (spellInfo : SpellInfo) (itemId : ℕ)
    (startCooldown : Bool) (h : SpellHistory) : Except Fault SpellHistory :=
  if startCooldown then do
    let spells ← h.eventSpells env m spellInfo itemId
    .ok (spells.foldl (fun h spellInfo => h.startCooldown env m spellInfo itemId false) h)
  else do
    let _ ← h.categorySpell env m spellInfo itemId
    .ok h

/-! ## Asking -/

def hasCooldown (env : Env) (h : SpellHistory) (spellInfo : SpellInfo) (itemId : ℕ)
    (ignoreCategoryCooldown : Bool) : Bool :=
  if (h.spellCooldowns.lookup spellInfo.id).isSome then true
  else if ignoreCategoryCooldown then false
  else
    let category := (env.getCooldownDurations spellInfo itemId).categoryId
    if category = 0 then false else (h.categoryCooldowns.lookup category).isSome

/-- The end that `GetRemainingCooldown` finds. -/
def cooldownEnd (h : SpellHistory) (spellInfo : SpellInfo) : Except Fault (Option ℕ) :=
  match h.spellCooldowns.lookup spellInfo.id with
  | some node => .ok (some node.entry.cooldownEnd)
  | none =>
    match h.categoryCooldowns.lookup spellInfo.category with
    | none => .ok none
    | some p => do
      let entry ← h.deref p
      .ok (some entry.categoryEnd)

/-- `GetRemainingCooldown`, in milliseconds. -/
def getRemainingCooldown (now : ℕ) (h : SpellHistory) (spellInfo : SpellInfo) : Except Fault ℕ := do
  match ← h.cooldownEnd spellInfo with
  | none => .ok 0
  | some cooldownEnd =>
    .ok (if cooldownEnd < now then 0 else ((cooldownEnd - now) / milliseconds 1) % 2 ^ 32)

/-! ## Erasing -/

/-- The first loop of `Update`. -/
def expireCategories (now : ℕ) (h : SpellHistory) : Except Fault SpellHistory := do
  let categoryCooldowns ← h.categoryCooldowns.entries.foldlM
    (fun categoryCooldowns itr => do
      let entry ← h.deref itr.2
      .ok (if entry.categoryEnd < now then categoryCooldowns.erase itr.1 else categoryCooldowns))
    h.categoryCooldowns
  .ok { h with categoryCooldowns := categoryCooldowns }

def update (now : ℕ) (h : SpellHistory) : Except Fault SpellHistory := do
  let h ← h.expireCategories now
  .ok (h.eraseWhere fun _ entry => entry.cooldownEnd < now)

def resetCooldown (h : SpellHistory) (spellId : ℕ) : SpellHistory :=
  match h.spellCooldowns.lookup spellId with
  | none => h
  | some node => h.eraseCooldown ⟨spellId, node⟩

def resetCooldowns (h : SpellHistory) (predicate : ℕ → CooldownEntry → Bool) : SpellHistory :=
  h.eraseWhere predicate

def resetAllCooldowns (h : SpellHistory) : SpellHistory :=
  { h with categoryCooldowns := ∅, spellCooldowns := ∅ }

/-! ## School lockouts -/

/-- The spell is one that a lockout of those schools locks, if its own cooldown is shorter. -/
def locks (spellInfo : SpellInfo) (schoolMask : BitVec 32) : Bool :=
  !spellInfo.cooldownStartedOnEvent && spellInfo.preventionTypeSilence &&
    (schoolMask &&& spellInfo.schoolMask != 0)

/-- One known spell in the loop of `LockSpellSchool`. -/
def lockSpell (env : Env) (now : ℕ) (schoolMask : BitVec 32) (lockoutTime : ℕ) (h : SpellHistory)
    (spellId : ℕ) : Except Fault SpellHistory := do
  let spellInfo ← env.assertSpellInfo spellId
  if locks spellInfo schoolMask then
    let remaining ← h.getRemainingCooldown now spellInfo
    .ok (if remaining < lockoutTime then
      h.addCooldown spellId 0 (now + milliseconds lockoutTime) 0 now false else h)
  else .ok h

def lockSpellSchool (env : Env) (m : Moment) (schoolMask : BitVec 32) (lockoutTime : ℕ)
    (h : SpellHistory) : Except Fault SpellHistory :=
  m.owner.knownSpells.foldlM (lockSpell env m.now schoolMask lockoutTime) h

end SpellHistory

/-! ## The database -/

/-- A row of `character_spell_cooldown`, or of `pet_spell_cooldown` with item 0. -/
structure CooldownRow where
  spell : ℕ
  item : ℕ
  time : ℕ
  categoryId : ℕ
  categoryEnd : ℕ

namespace SpellHistory

def readCooldown (env : Env) (row : CooldownRow) : Option CooldownEntry :=
  if (env.getSpellInfo row.spell).isSome then
    some ⟨row.spell, seconds row.time, row.item, row.categoryId, seconds row.categoryEnd, false⟩
  else none

/-- One row in the loop of `LoadFromDB`. -/
def loadRow (env : Env) (h : SpellHistory) (row : CooldownRow) : SpellHistory :=
  match readCooldown env row with
  | none => h
  | some cooldown => h.record row.spell cooldown

def loadFromDB (env : Env) (rows : List CooldownRow) (h : SpellHistory) : SpellHistory :=
  rows.foldl (loadRow env) h

/-! ## Duels -/

def saveCooldownStateBeforeDuel (h : SpellHistory) : SpellHistory :=
  { h with
    spellCooldownsBeforeDuel := h.spellCooldowns.entries.foldl
      (fun saved itr => saved.insert itr.1 itr.2.entry) ∅ }

/-- One spell in the first loop of `RestoreCooldownStateAfterDuel`. -/
def keepProfession (env : Env) (h : SpellHistory) (itr : Iterator) : Except Fault SpellHistory := do
  let spellInfo ← env.assertSpellInfo itr.1
  .ok (if spellInfo.recoveryTime > tenMinutes ∨ spellInfo.categoryRecoveryTime > tenMinutes then
    { h with spellCooldownsBeforeDuel := h.spellCooldownsBeforeDuel.insert itr.1 itr.2.entry }
  else h)

/-- One saved entry in the second loop. `operator[]` makes an entry where the spell has none. -/
def restoreEntry (h : SpellHistory) (saved : Sigma fun _ : ℕ => CooldownEntry) : SpellHistory :=
  if saved.2.onHold then h
  else if (h.nodeAt saved.1).entry.onHold then h
  else h.write saved.1 saved.2

def restoreCooldownStateAfterDuel (env : Env) (m : Moment) (h : SpellHistory) :
    Except Fault SpellHistory :=
  if m.owner.isPlayer then do
    let h ← h.spellCooldowns.entries.foldlM (keepProfession env) h
    .ok (h.spellCooldownsBeforeDuel.entries.foldl restoreEntry h)
  else .ok h

end SpellHistory

/-! ## Calls -/

inductive Op
  | addCooldown (spellId itemId cooldownEnd categoryId categoryEnd : ℕ) (onHold : Bool)
  | addCooldownFor (spellId itemId cooldownDuration : ℕ)
  | startCooldown (spellInfo : SpellInfo) (itemId : ℕ) (onHold : Bool)
  | sendCooldownEvent (spellInfo : SpellInfo) (itemId : ℕ) (startCooldown : Bool)
  | lockSpellSchool (schoolMask : BitVec 32) (lockoutTime : ℕ)
  | resetCooldown (spellId : ℕ)
  | resetCooldowns (predicate : ℕ → CooldownEntry → Bool)
  | resetAllCooldowns
  | loadFromDB (rows : List CooldownRow)
  | saveCooldownStateBeforeDuel
  | restoreCooldownStateAfterDuel
  | update

/-- A call at its moment. -/
structure Call where
  moment : Moment
  op : Op

/-- One call. -/
def step (env : Env) (h : SpellHistory) (call : Call) : Except Fault SpellHistory :=
  let m := call.moment
  match call.op with
  | .addCooldown spellId itemId cooldownEnd categoryId categoryEnd onHold =>
    .ok (h.addCooldown spellId itemId cooldownEnd categoryId categoryEnd onHold)
  | .addCooldownFor spellId itemId cooldownDuration =>
    .ok (h.addCooldownFor m.now spellId itemId cooldownDuration)
  | .startCooldown spellInfo itemId onHold => .ok (h.startCooldown env m spellInfo itemId onHold)
  | .sendCooldownEvent spellInfo itemId startCooldown =>
    h.sendCooldownEvent env m spellInfo itemId startCooldown
  | .lockSpellSchool schoolMask lockoutTime => h.lockSpellSchool env m schoolMask lockoutTime
  | .resetCooldown spellId => .ok (h.resetCooldown spellId)
  | .resetCooldowns predicate => .ok (h.resetCooldowns predicate)
  | .resetAllCooldowns => .ok h.resetAllCooldowns
  | .loadFromDB rows => .ok (h.loadFromDB env rows)
  | .saveCooldownStateBeforeDuel => .ok h.saveCooldownStateBeforeDuel
  | .restoreCooldownStateAfterDuel => h.restoreCooldownStateAfterDuel env m
  | .update => h.update m.now

end Sunstrider.Spells

/-!
## Cooldowns in packets

`SpellHistory::WritePacket`, for the initial spells of a player and for the action bar of a pet: a count
and a record for each cooldown. The two differ in the width of the count, in the item of a record, and in
what is said of cooldowns without an end. Records are those of the client that the server is built for
by default, with spells of 16 bits.
-/

namespace Sunstrider.Spells

open Sunstrider.Lib (toBytes toU32)

/-- `InfinityCooldownDelayCheck`, half a `MONTH`. -/
def infinityCooldownDelayCheck : ℕ := seconds (30 * 24 * 60 * 60 / 2)

/-- `std::chrono::duration_cast<std::chrono::milliseconds>(t - now).count()`. -/
def millisecondsFrom (now t : ℕ) : ℤ := ((t : ℤ) - now).tdiv (milliseconds 1)

/-- The two durations at the end of a record: of the cooldown, and of its category. -/
def durations (cooldown category : ℕ) : List UInt8 := toBytes 4 cooldown ++ toBytes 4 category

/-- What `WritePacket<Pet>` writes of a cooldown. -/
def writePetCooldown (now spellId : ℕ) (e : CooldownEntry) : List UInt8 :=
  toBytes 2 spellId ++ toBytes 2 e.categoryId ++
    if !e.onHold then
      let cooldownDuration := millisecondsFrom now e.cooldownEnd
      if cooldownDuration ≤ 0 then durations 0 0
      else
        let categoryDuration := millisecondsFrom now e.categoryEnd
        if categoryDuration > 0 then durations 0 (toU32 categoryDuration)
        else durations (toU32 cooldownDuration) 0
    else []

/-- What `WritePacket<Player>` writes of a cooldown. -/
def writePlayerCooldown (now spellId : ℕ) (e : CooldownEntry) : List UInt8 :=
  toBytes 2 spellId ++ toBytes 2 e.itemId ++ toBytes 2 e.categoryId ++
    -- a cooldown without an end has a format of its own
    if now + infinityCooldownDelayCheck ≤ e.cooldownEnd then durations 1 0x80000000
    else
      let cooldownDuration := millisecondsFrom now e.cooldownEnd
      if cooldownDuration ≤ 0 then durations 0 0
      else
        let categoryDuration := millisecondsFrom now e.categoryEnd
        if categoryDuration ≥ 0 then durations 0 (toU32 categoryDuration)
        else durations (toU32 cooldownDuration) 0

/-- The owners of a history whose cooldowns are sent. -/
inductive OwnerType
  | pet
  | player
  deriving DecidableEq

namespace OwnerType

/-- The bytes of the count. -/
def countWidth : OwnerType → ℕ
  | pet => 1
  | player => 2

/-- The bytes of a record: its ids, and two durations. -/
def recordSize : OwnerType → ℕ
  | pet => 12
  | player => 14

def writeCooldown : OwnerType → ℕ → ℕ → CooldownEntry → List UInt8
  | pet => writePetCooldown
  | player => writePlayerCooldown

end OwnerType

namespace SpellHistory

/-- The records that `WritePacket` writes, one for each cooldown of the table. -/
def records (o : OwnerType) (h : SpellHistory) (now : ℕ) : List (List UInt8) :=
  h.spellCooldowns.entries.map fun itr => o.writeCooldown now itr.1 itr.2.entry

def writePacket (o : OwnerType) (h : SpellHistory) (now : ℕ) : List UInt8 :=
  toBytes o.countWidth h.spellCooldowns.entries.length ++ (h.records o now).flatten

end SpellHistory

end Sunstrider.Spells
