import Mathlib.Data.List.AList
import Mathlib.Data.Rat.Defs

/-!
# The combat system and what it reads of the world

The combat and threat managers ask units for facts that other parts of the server decide: whether a
unit is alive, on which map it stands, whom it can see, which auras it has. `Env` gathers the
answers at one moment. A run gives each operation an `Env` of its own, so nothing is assumed about
how the answers change between two operations.

The order in which an `unordered_map` is walked is such an answer too. `Env.visit` gives it, and
`Env.visit_perm` says all that is known of it. `CombatManager.cpp` follows.
-/

namespace Sunstrider.Combat

/-- The identity of an object on the heap: what a C++ pointer compares. -/
abbrev RefId := ℕ

/-- A map from a unit's guid to a pointer. A guid names one unit, so units are their own guids. -/
abbrev RefMap (U : Type) := AList (fun _ : U => RefId)

/-- The attributes of a spell that `ThreatManager::AddThreat` tests. -/
structure SpellInfo where
  noThreat : Bool
  noInitialAggro : Bool
  deriving DecidableEq, Repr

/-- The answers of the world at one moment. -/
structure Env (U : Type) where
  isInWorld : U → Bool
  isAlive : U → Bool
  getMap : U → ℕ
  inSamePhase : U → U → Bool
  isEvading : U → Bool
  isInFlight : U → Bool
  isFriendlyTo : U → U → Bool
  /-- The unit is, or belongs to, a player with `.gm on`. -/
  isGameMaster : U → Bool
  isControlledByPlayer : U → Bool
  isImmuneToPC : U → Bool
  isImmuneToNPC : U → Bool
  /-- `UNIT_FLAG_PLAYER_CONTROLLED`. -/
  isPlayerControlled : U → Bool
  isWithinDistInMap : U → U → ℚ → Bool
  isWithinMeleeRange : U → U → Bool
  isTrigger : U → Bool
  canSeeOrDetect : U → U → Bool
  isTargetAcceptable : U → U → Bool
  canCreatureAttack : U → U → Bool
  /-- The victim is immune to the damage school of the owner's melee hits. -/
  isImmunedToDamage : U → U → Bool
  hasConfuseAura : U → Bool
  hasBreakableStunAura : U → Bool
  hasDetauntAuraFrom : U → U → Bool
  /-- The casters of the unit's taunt auras, in the order of application. -/
  tauntCasters : U → List U
  /-- The amounts of the unit's `SPELL_AURA_MOD_TOTAL_THREAT` auras. -/
  totalThreatAuras : U → List ℤ
  calculateModifiedThreat : ℚ → U → Option SpellInfo → ℚ
  /-- `ObjectAccessor::GetUnit` finds the second unit from the first. -/
  getUnit : U → U → Bool
  visit : RefMap U → List (Sigma fun _ : U => RefId)
  visit_perm : ∀ m, (visit m).Perm m.entries

namespace Env

variable {U : Type} (env : Env U)

theorem visit_nodupKeys (m : RefMap U) : (env.visit m).NodupKeys :=
  (List.perm_nodupKeys (env.visit_perm m)).mpr m.nodupKeys

variable [DecidableEq U]

def canBeginCombat (a b : U) : Bool :=
  if a = b then false
  else if !env.isInWorld a || !env.isInWorld b then false
  else if !env.isAlive a || !env.isAlive b then false
  else if env.getMap a != env.getMap b then false
  else if !env.inSamePhase a b then false
  else if env.isEvading a || env.isEvading b then false
  else if env.isInFlight a || env.isInFlight b then false
  else if env.isFriendlyTo a b || env.isFriendlyTo b a then false
  else if env.isGameMaster a || env.isGameMaster b then false
  else true

/-- Combat begins between two distinct units only. -/
theorem ne_of_canBeginCombat {a b : U} (h : env.canBeginCombat a b = true) : a ≠ b := by
  rintro rfl
  unfold canBeginCombat at h
  rw [if_pos rfl] at h
  cases h

/-- The test by which `InheritCombatStatesFrom` skips a target its owner is immune to. -/
def isImmuneToAttacksOf (owner target : U) : Bool :=
  (env.isImmuneToPC owner && env.isPlayerControlled target) ||
    (env.isImmuneToNPC owner && !env.isPlayerControlled target)

/-- `ThreatReference::FlagsAllowFighting`. -/
def flagsAllowFighting (a b : U) : Bool :=
  if env.isTrigger a then false
  else if env.isPlayerControlled a then !env.isImmuneToPC b
  else !env.isImmuneToNPC b

/-- An entry is walked over exactly when the map holds it. -/
theorem mem_visit {m : RefMap U} {u : U} {id : RefId} :
    ⟨u, id⟩ ∈ env.visit m ↔ m.lookup u = some id := by
  rw [(env.visit_perm m).mem_iff]
  exact (List.mem_dlookup_iff m.nodupKeys).symm

end Env

end Sunstrider.Combat

/-!
## Combat references and their managers

`CombatManager.cpp`, without the threat system: the combat references on the heap, the two maps of
every unit's manager that point to them, and the units' `UNIT_FLAG_IN_COMBAT`.

A pointer is a `RefId`, and `CombatState.refs` is the heap: reading a freed or never allocated id is
the fault `dangling`, and the `ASSERT`s of the source are faults of their own. The AI notifications
do nothing here, so an operation ends where the source hands over to the AI.
-/

namespace Sunstrider.Combat

/-- What ends the server: a freed object that is read, or a failed `ASSERT`. `endless` is a loop of
the source that ran past the bound its model gives it. -/
inductive Fault
  | dangling
  | duplicateCombatState
  | duplicateThreatReference
  | duplicateThreatenedByMe
  | victimNotFound
  | endless
  deriving DecidableEq, Repr

/-- `CombatReference`, with the fields of its subclass `PvPCombatReference`; the latter are read
only where `isPvP` is set. -/
structure CombatReference (U : Type) where
  first : U
  second : U
  isPvP : Bool
  combatTimer : ℕ
  suppressFirst : Bool
  suppressSecond : Bool
  deriving DecidableEq

def pvpCombatTimeout : ℕ := 5250

variable {U : Type}

namespace CombatReference

variable [DecidableEq U]

/-- A reference as its constructor leaves it. -/
def new (first second : U) (isPvP : Bool) : CombatReference U :=
  ⟨first, second, isPvP, pvpCombatTimeout, false, false⟩

def getOther (r : CombatReference U) (me : U) : U :=
  if r.first = me then r.second else r.first

def isSuppressedFor (r : CombatReference U) (who : U) : Bool :=
  if who = r.first then r.suppressFirst else r.suppressSecond

def suppress (r : CombatReference U) (who : U) : CombatReference U :=
  if who = r.first then { r with suppressFirst := true } else { r with suppressSecond := true }

/-- `PvPCombatReference::Update`: `none` where the source answers `false`, the timer having run
out. -/
def update (r : CombatReference U) (tdiff : ℕ) : Option (CombatReference U) :=
  if r.combatTimer ≤ tdiff then none
  else some { r with combatTimer := r.combatTimer - tdiff }

end CombatReference

/-- The two maps of a `CombatManager`. -/
structure CombatManager (U : Type) where
  pveRefs : RefMap U
  pvpRefs : RefMap U

namespace CombatManager

/-- The map that a reference of the kind lives in. -/
def refs (m : CombatManager U) : Bool → RefMap U
  | true => m.pvpRefs
  | false => m.pveRefs

def setRefs (m : CombatManager U) : Bool → RefMap U → CombatManager U
  | true, refs => { m with pvpRefs := refs }
  | false, refs => { m with pveRefs := refs }

@[simp] theorem refs_setRefs (m : CombatManager U) (k k' : Bool) (r : RefMap U) :
    (m.setRefs k r).refs k' = if k' = k then r else m.refs k' := by
  cases k <;> cases k' <;> rfl

end CombatManager

/-- The combat side of the world. -/
structure CombatState (U : Type) where
  manager : U → CombatManager U
  /-- `UNIT_FLAG_IN_COMBAT`. -/
  isInCombat : U → Bool
  refs : RefId → Option (CombatReference U)
  nextRef : RefId

namespace CombatState

variable [DecidableEq U]

/-- No references, and nobody in combat. -/
def initial : CombatState U :=
  ⟨fun _ => ⟨∅, ∅⟩, fun _ => false, fun _ => none, 0⟩

def deref (c : CombatState U) (id : RefId) : Except Fault (CombatReference U) :=
  match c.refs id with
  | some r => .ok r
  | none => .error .dangling

/-- The map of the kind in the unit's manager. -/
def refsOf (c : CombatState U) (u : U) (k : Bool) : RefMap U := (c.manager u).refs k

def setRefsOf (c : CombatState U) (u : U) (k : Bool) (m : RefMap U) : CombatState U :=
  { c with manager := Function.update c.manager u ((c.manager u).setRefs k m) }

def setRef (c : CombatState U) (id : RefId) (r : CombatReference U) : CombatState U :=
  { c with refs := Function.update c.refs id (some r) }

/-- `new`: an id that no object had before. -/
def allocRef (c : CombatState U) (r : CombatReference U) : CombatState U :=
  { c with refs := Function.update c.refs c.nextRef (some r), nextRef := c.nextRef + 1 }

/-- `delete this`. -/
def freeRef (c : CombatState U) (id : RefId) : CombatState U :=
  { c with refs := Function.update c.refs id none }

def setInCombatFlag (c : CombatState U) (u : U) (b : Bool) : CombatState U :=
  { c with isInCombat := Function.update c.isInCombat u b }

/-! ## The managers' own operations -/

def putReference (c : CombatState U) (owner guid : U) (id : RefId) :
    Except Fault (CombatState U) := do
  let ref ← c.deref id
  let inMap := (c.refsOf owner ref.isPvP).lookup guid
  if inMap.isSome then .error .duplicateCombatState
  else .ok (c.setRefsOf owner ref.isPvP ((c.refsOf owner ref.isPvP).insert guid id))

def purgeReference (c : CombatState U) (owner guid : U) (pvp : Bool) : CombatState U :=
  c.setRefsOf owner pvp ((c.refsOf owner pvp).erase guid)

def hasPvECombat (c : CombatState U) (u : U) : Bool := !(c.refsOf u false).entries.isEmpty

def hasPvPCombat (c : CombatState U) (u : U) : Except Fault Bool :=
  (c.refsOf u true).entries.anyM fun pair => do
    let ref ← c.deref pair.2
    .ok !ref.isSuppressedFor u

def hasCombat (c : CombatState U) (u : U) : Except Fault Bool :=
  if c.hasPvECombat u then .ok true else c.hasPvPCombat u

/-- `UpdateOwnerCombatState`. Its answer says only whether the AI is to be told. -/
def updateOwnerCombatState (c : CombatState U) (u : U) : Except Fault (CombatState U) := do
  let combatState ← c.hasCombat u
  if combatState = c.isInCombat u then .ok c else .ok (c.setInCombatFlag u combatState)

def isInCombatWith (c : CombatState U) (u who : U) : Bool :=
  ((c.refsOf u false).lookup who).isSome || ((c.refsOf u true).lookup who).isSome

/-- The first half of the second step of `Refresh`: the suppression of `first` ends. -/
def unsuppressFirst (c : CombatState U) (id : RefId) : Except Fault (CombatState U) := do
  let ref ← c.deref id
  if ref.suppressFirst then
    (c.setRef id { ref with suppressFirst := false }).updateOwnerCombatState ref.first
  else .ok c

/-- And the suppression of `second`. -/
def unsuppressSecond (c : CombatState U) (id : RefId) : Except Fault (CombatState U) := do
  let ref ← c.deref id
  if ref.suppressSecond then
    (c.setRef id { ref with suppressSecond := false }).updateOwnerCombatState ref.second
  else .ok c

def refresh (c : CombatState U) (id : RefId) : Except Fault (CombatState U) := do
  let ref ← c.deref id
  let c ← (c.setRef id { ref with combatTimer := pvpCombatTimeout }).unsuppressFirst id
  c.unsuppressSecond id

def suppressFor (c : CombatState U) (id : RefId) (who : U) : Except Fault (CombatState U) := do
  let ref ← c.deref id
  (c.setRef id (ref.suppress who)).updateOwnerCombatState who

def suppressPvPCombat (env : Env U) (c : CombatState U) (owner : U) :
    Except Fault (CombatState U) := do
  let c ← (env.visit (c.refsOf owner true)).foldlM (fun c pair => do
    let ref ← c.deref pair.2
    .ok (c.setRef pair.2 (ref.suppress owner))) c
  c.updateOwnerCombatState owner

/-- The last part of `SetInCombatWith`: a new reference goes into both managers. -/
def beginCombat (env : Env U) (c : CombatState U) (owner who : U) :
    Except Fault (CombatState U) := do
  let pvp := env.isControlledByPlayer owner && env.isControlledByPlayer who
  let ref := c.nextRef
  let c := c.allocRef (CombatReference.new owner who pvp)
  let c ← c.putReference owner who ref
  let c ← c.putReference who owner ref
  let c ← c.updateOwnerCombatState owner
  c.updateOwnerCombatState who

def setInCombatWith (env : Env U) (c : CombatState U) (owner who : U) :
    Except Fault (Bool × CombatState U) :=
  match (c.refsOf owner true).lookup who with
  | some id => do
    let c ← c.refresh id
    .ok (true, c)
  | none =>
    if ((c.refsOf owner false).lookup who).isSome then .ok (true, c)
    else if !env.canBeginCombat owner who then .ok (false, c)
    else do
      let c ← c.beginCombat env owner who
      .ok (c.isInCombatWith owner who, c)

/-- One of the two loops of `InheritCombatStatesFrom`. No entry of `who`'s maps changes under the
loop: the owner meets `who`'s enemies, and `who` is none of them. -/
def inheritRefs (env : Env U) (owner who : U) (k : Bool) (c : CombatState U) :
    Except Fault (CombatState U) :=
  (env.visit (c.refsOf who k)).foldlM (fun c pair =>
    if c.isInCombatWith owner pair.1 then .ok c
    else do
      let ref ← c.deref pair.2
      let target := ref.getOther who
      if env.isImmuneToAttacksOf owner target then .ok c
      else do
        let (_, c) ← c.setInCombatWith env owner target
        .ok c) c

def inheritCombatStatesFrom (env : Env U) (c : CombatState U) (owner who : U) :
    Except Fault (CombatState U) := do
  let c ← c.inheritRefs env owner who false
  c.inheritRefs env owner who true

/-- `CombatReference::EndCombat` after the threat between the two units is gone: both managers
forget the reference, both flags are brought up to date, and the reference is freed. -/
def dropReference (c : CombatState U) (id : RefId) : Except Fault (CombatState U) := do
  let ref ← c.deref id
  let c := c.purgeReference ref.first ref.second ref.isPvP
  let c := c.purgeReference ref.second ref.first ref.isPvP
  let c ← c.updateOwnerCombatState ref.first
  let c ← c.updateOwnerCombatState ref.second
  .ok (c.freeRef id)

end CombatState

end Sunstrider.Combat
