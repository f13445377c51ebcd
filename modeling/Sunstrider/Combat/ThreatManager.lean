import Sunstrider.Combat.CombatManager
import Sunstrider.Lib.Heap
import Sunstrider.Lib.Rounding
import Sunstrider.Lib.Run
import Mathlib.Data.Prod.Lex

/-!
# Threat references and their managers

`ThreatManager.cpp`, as far as it stays inside the threat system: the threat references on the heap
of the process, the two maps and the sorted list of every unit's manager that point to them, and the
operations that change a reference's values or take it away. `AddThreat`, which also begins combat,
is in `Combat.World`.

The sorted list is a `boost::heap::fibonacci_heap`, which is not part of the repository: the model
takes any `MutableHeap` for it. Threat values are single-precision floats: the model takes any
`Rounding` for their arithmetic. The opcodes that tell clients of the list are compiled out of this
server (`LICH_KING`), and the AI callbacks do nothing.

Every call of `HeapNotifyIncreased` and `HeapNotifyDecreased` is recorded in
`ThreatState.notifications`, with the reference's key before the change that it reports and after.
-/

namespace Sunstrider.Combat

open Sunstrider.Lib (MutableHeap Rounding Direction drain)

/-- `ThreatReference::OnlineState`. -/
inductive OnlineState
  | offline
  | suppressed
  | online
  deriving DecidableEq, Repr

/-- The number behind the enumerator, by which the states are compared. -/
def OnlineState.toNat : OnlineState → ℕ
  | .offline => 0
  | .suppressed => 1
  | .online => 2

/-- `TAUNT_STATE_DETAUNT`, `TAUNT_STATE_NONE` and `TAUNT_STATE_TAUNT`. `TauntUpdate` counts the
state of a taunting caster up from the last of these. -/
def tauntStateDetaunt : ℤ := -1
def tauntStateNone : ℤ := 0
def tauntStateTaunt : ℤ := 1

/-- `ThreatReference`. Its handle in the sorted list is the reference itself. -/
structure ThreatReference (U : Type) where
  owner : U
  victim : U
  online : OnlineState
  baseAmount : ℚ
  tempModifier : ℤ
  taunted : ℤ
  deriving DecidableEq

/-- What `CompareReferencesLT` compares, in its order: the online state, the taunt state, the
threat. -/
abbrev ThreatKey := ℕ ×ₗ ℤ ×ₗ ℚ

variable {U : Type}

namespace ThreatReference

def isOnline (r : ThreatReference U) : Bool := r.online == .online

def isAvailable (r : ThreatReference U) : Bool := r.online != .offline

def isSuppressed (r : ThreatReference U) : Bool := r.online == .suppressed

def isOffline (r : ThreatReference U) : Bool := r.online == .offline

def isTaunting (r : ThreatReference U) : Bool := tauntStateTaunt ≤ r.taunted

def getThreat (R : Rounding) (r : ThreatReference U) : ℚ :=
  max (R.add r.baseAmount (R.round r.tempModifier)) 0

def key (R : Rounding) (r : ThreatReference U) : ThreatKey :=
  toLex (r.online.toNat, toLex (r.taunted, r.getThreat R))

def shouldBeOffline (env : Env U) (r : ThreatReference U) : Bool :=
  if !env.canSeeOrDetect r.owner r.victim then true
  else if !env.isTargetAcceptable r.owner r.victim || !env.canCreatureAttack r.owner r.victim then
    true
  else !env.flagsAllowFighting r.owner r.victim || !env.flagsAllowFighting r.victim r.owner

def shouldBeSuppressed (env : Env U) (r : ThreatReference U) : Bool :=
  if r.isTaunting then false
  else if env.isImmunedToDamage r.victim r.owner then true
  else if env.hasConfuseAura r.victim then true
  else env.hasBreakableStunAura r.victim

/-- The state in which a reference is online, or would be. -/
def onlineState (env : Env U) (r : ThreatReference U) : OnlineState :=
  if r.shouldBeSuppressed env then .suppressed else .online

end ThreatReference

/-- `ThreatManager::CompareReferencesLT`: `a` is lower on the threat list than `b`. -/
def compareReferencesLT (R : Rounding) (a b : ThreatReference U) (aWeight : ℚ) : Bool :=
  if a.online ≠ b.online then a.online.toNat < b.online.toNat
  else if a.taunted ≠ b.taunted then a.taunted < b.taunted
  else R.mul (a.getThreat R) (R.round aWeight) < b.getThreat R

def threatUpdateInterval : ℕ := 1000

variable (H : MutableHeap RefId ThreatKey)

/-- `ThreatManager`, over a heap for its sorted list. -/
structure ThreatManager (U : Type) where
  ownerCanHaveThreatList : Bool
  ownerEngaged : Bool
  needClientUpdate : Bool
  updateTimer : ℕ
  sortedThreatList : H.Carrier
  myThreatListEntries : RefMap U
  threatenedByMe : RefMap U
  currentVictimRef : Option RefId
  fixateRef : Option RefId
  redirectInfo : List (U × ℕ)

/-- One call of `HeapNotifyIncreased` or `HeapNotifyDecreased`: the reference's key before the
change the call reports, and at the call. -/
structure HeapNotification where
  ref : RefId
  direction : Direction
  before : ThreatKey
  after : ThreatKey

/-- The key moved in the direction of the call, or not at all. -/
def HeapNotification.Valid (n : HeapNotification) : Prop := n.direction.Agrees n.before n.after

instance (n : HeapNotification) : Decidable n.Valid :=
  inferInstanceAs (Decidable (n.direction.Agrees n.before n.after))

/-- The threat side of the world. -/
structure ThreatState (U : Type) where
  manager : U → ThreatManager H U
  refs : RefId → Option (ThreatReference U)
  nextRef : RefId
  notifications : List HeapNotification

namespace ThreatState

variable {H} [DecidableEq U] (R : Rounding)

/-- A manager as its constructor leaves it, for an owner that can or cannot have a threat list and
with the redirections that are registered on it. -/
def newManager (canHave : Bool) (redirects : List (U × ℕ)) : ThreatManager H U :=
  ⟨canHave, false, false, threatUpdateInterval, H.empty, ∅, ∅, none, none, redirects⟩

/-- Nobody threatens anybody. -/
def initial (canHave : U → Bool) (redirects : U → List (U × ℕ)) : ThreatState H U :=
  ⟨fun u => newManager (canHave u) (redirects u), fun _ => none, 0, []⟩

def deref (t : ThreatState H U) (id : RefId) : Except Fault (ThreatReference U) :=
  match t.refs id with
  | some r => .ok r
  | none => .error .dangling

def myRefs (t : ThreatState H U) (u : U) : RefMap U := (t.manager u).myThreatListEntries

def byMeRefs (t : ThreatState H U) (u : U) : RefMap U := (t.manager u).threatenedByMe

def sorted (t : ThreatState H U) (u : U) : H.Carrier := (t.manager u).sortedThreatList

/-- The keys that the comparator of the sorted lists reads. -/
def key (t : ThreatState H U) (id : RefId) : ThreatKey :=
  match t.refs id with
  | some r => r.key R
  | none => toLex (0, toLex (0, 0))

def modifyManager (t : ThreatState H U) (u : U) (f : ThreatManager H U → ThreatManager H U) :
    ThreatState H U :=
  { t with manager := Function.update t.manager u (f (t.manager u)) }

def setRef (t : ThreatState H U) (id : RefId) (r : ThreatReference U) : ThreatState H U :=
  { t with refs := Function.update t.refs id (some r) }

/-- A change of the values of a reference, and the notice of it to the sorted list of its owner. -/
def writeNotify (t : ThreatState H U) (id : RefId) (r r' : ThreatReference U) (d : Direction) :
    ThreatState H U :=
  let t := t.setRef id r'
  let t := t.modifyManager r'.owner fun m =>
    { m with sortedThreatList := H.notify d (t.key R) m.sortedThreatList id }
  { t with notifications := ⟨id, d, r.key R, r'.key R⟩ :: t.notifications }

def needClientUpdate (t : ThreatState H U) (u : U) : ThreatState H U :=
  t.modifyManager u fun m => { m with needClientUpdate := true }

/-! ## The values of one reference -/

/-- `ThreatReference::AddThreat`. -/
def refAddThreat (t : ThreatState H U) (id : RefId) (amount : ℚ) :
    Except Fault (ThreatState H U) := do
  let r ← t.deref id
  if amount = 0 then .ok t
  else
    let r' := { r with baseAmount := max (R.add r.baseAmount amount) 0 }
    let t := t.writeNotify R id r r' (if 0 < amount then .increased else .decreased)
    .ok (t.needClientUpdate r.owner)

/-- `ThreatReference::ScaleThreat`. -/
def refScaleThreat (t : ThreatState H U) (id : RefId) (factor : ℚ) :
    Except Fault (ThreatState H U) := do
  let r ← t.deref id
  if factor = 1 then .ok t
  else
    let r' := { r with baseAmount := R.mul r.baseAmount factor }
    let t := t.writeNotify R id r r' (if 1 < factor then .increased else .decreased)
    .ok (t.needClientUpdate r.owner)

/-- `ThreatReference::UpdateOffline`. -/
def refUpdateOffline (env : Env U) (t : ThreatState H U) (id : RefId) :
    Except Fault (ThreatState H U) := do
  let r ← t.deref id
  if r.shouldBeOffline env = r.isOffline then .ok t
  else if r.shouldBeOffline env then
    .ok (t.writeNotify R id r { r with online := .offline } .decreased)
  else .ok (t.writeNotify R id r { r with online := r.onlineState env } .increased)

/-- `ThreatReference::UpdateTauntState`. -/
def refUpdateTauntState (env : Env U) (t : ThreatState H U) (id : RefId) (state : ℤ) :
    Except Fault (ThreatState H U) := do
  let r ← t.deref id
  let state :=
    if state < tauntStateTaunt && env.hasDetauntAuraFrom r.victim r.owner then tauntStateDetaunt
    else state
  if state = r.taunted then .ok t
  else
    let t := t.writeNotify R id r { r with taunted := state }
      (if state < r.taunted then .decreased else .increased)
    .ok (t.needClientUpdate r.owner)

/-- The body of `EvaluateSuppressed` for one reference. -/
def refEvaluateSuppressed (env : Env U) (canExpire : Bool) (t : ThreatState H U) (id : RefId) :
    Except Fault (ThreatState H U) := do
  let r ← t.deref id
  if r.isOnline && r.shouldBeSuppressed env then
    .ok (t.writeNotify R id r { r with online := .suppressed } .decreased)
  else if canExpire && r.isSuppressed && !r.shouldBeSuppressed env then
    .ok (t.writeNotify R id r { r with online := .online } .increased)
  else .ok t

/-- The body of `UpdateMyTempModifiers` for one reference. -/
def refSetTempModifier (mod : ℤ) (isIncrease : Bool) (t : ThreatState H U) (id : RefId) :
    Except Fault (ThreatState H U) := do
  let r ← t.deref id
  .ok (t.writeNotify R id r { r with tempModifier := mod }
    (if isIncrease then .increased else .decreased))

/-! ## The current victim -/

/-- The walk of `ReselectVictim` down the sorted list, from the top to the old victim. -/
def reselectBelow (env : Env U) (t : ThreatState H U) (owner : U) (oldVictim : RefId)
    (old : ThreatReference U) : List RefId → Except Fault (Option RefId)
  | [] => .error .victimNotFound
  | next :: rest => do
    let ref ← t.deref next
    if next = oldVictim then .ok (some next)
    else if !compareReferencesLT R old ref (11 / 10) then .ok (some oldVictim)
    else if env.isWithinMeleeRange owner ref.victim then .ok (some next)
    else reselectBelow env t owner oldVictim old rest

/-- `ReselectVictim` once the old victim is known to be in play and not the highest entry. -/
def reselectAgainst (env : Env U) (t : ThreatState H U) (owner : U) (oldVictim highest : RefId) :
    Except Fault (Option RefId) := do
  let old ← t.deref oldVictim
  let high ← t.deref highest
  if !compareReferencesLT R old high (11 / 10) then .ok (some oldVictim)
  else if compareReferencesLT R old high (13 / 10) then .ok (some highest)
  else if env.isWithinMeleeRange owner high.victim then .ok (some highest)
  else reselectBelow R env t owner oldVictim old (H.ordered (t.key R) (t.sorted owner))

/-- The reference behind a cached pointer, where it is available. -/
def availableRef (t : ThreatState H U) : Option RefId → Except Fault (Option RefId)
  | none => .ok none
  | some id => do
    let r ← t.deref id
    .ok (if r.isAvailable then some id else none)

/-- `ReselectVictim` after the states of all entries are up to date. -/
def reselectUpdated (env : Env U) (t : ThreatState H U) (owner : U) :
    Except Fault (Option RefId) := do
  let fixated ← t.availableRef (t.manager owner).fixateRef
  if fixated.isSome then .ok fixated
  else
    let oldVictimRef ← t.availableRef (t.manager owner).currentVictimRef
    match H.top (t.sorted owner) with
    | none => .ok none
    | some highest => do
      let high ← t.deref highest
      if !high.isAvailable then .ok none
      else
        match oldVictimRef with
        | none => .ok (some highest)
        | some oldVictim =>
          if highest = oldVictim then .ok (some highest)
          else reselectAgainst R env t owner oldVictim highest

def reselectVictim (env : Env U) (t : ThreatState H U) (owner : U) :
    Except Fault (Option RefId × ThreatState H U) :=
  if (H.top (t.sorted owner)).isNone then .ok (none, t)
  else do
    let t ← (env.visit (t.myRefs owner)).foldlM (fun t pair => t.refUpdateOffline R env pair.2) t
    let victim ← t.reselectUpdated R env owner
    .ok (victim, t)

def updateVictim (env : Env U) (t : ThreatState H U) (owner : U) :
    Except Fault (ThreatState H U) := do
  let (newVictim, t) ← t.reselectVictim R env owner
  let newHighest := newVictim.isSome && newVictim != (t.manager owner).currentVictimRef
  .ok (t.modifyManager owner fun m =>
    { m with
      currentVictimRef := newVictim
      needClientUpdate := if newHighest || m.needClientUpdate then false else m.needClientUpdate })

def update (env : Env U) (t : ThreatState H U) (owner : U) (tdiff : ℕ) :
    Except Fault (ThreatState H U) :=
  let m := t.manager owner
  if !m.ownerCanHaveThreatList || !m.ownerEngaged then .ok t
  else if m.updateTimer ≤ tdiff then do
    let t ← t.updateVictim R env owner
    .ok (t.modifyManager owner fun m => { m with updateTimer := threatUpdateInterval })
  else .ok (t.modifyManager owner fun m => { m with updateTimer := m.updateTimer - tdiff })

/-! ## Taking references away -/

def purgeThreatListRef (t : ThreatState H U) (u guid : U) : ThreatState H U :=
  match (t.myRefs u).lookup guid with
  | none => t
  | some ref => t.modifyManager u fun m =>
    { m with
      myThreatListEntries := m.myThreatListEntries.erase guid
      sortedThreatList := H.erase (t.key R) m.sortedThreatList ref
      fixateRef := if m.fixateRef = some ref then none else m.fixateRef
      currentVictimRef := if m.currentVictimRef = some ref then none else m.currentVictimRef }

def purgeThreatenedByMeRef (t : ThreatState H U) (u guid : U) : ThreatState H U :=
  t.modifyManager u fun m => { m with threatenedByMe := m.threatenedByMe.erase guid }

/-- `ThreatReference::UnregisterAndFree`. -/
def unregisterAndFree (t : ThreatState H U) (id : RefId) : Except Fault (ThreatState H U) := do
  let r ← t.deref id
  let t := t.purgeThreatListRef R r.owner r.victim
  let t := t.purgeThreatenedByMeRef r.victim r.owner
  .ok { t with refs := Function.update t.refs id none }

/-- `ThreatManager::ClearThreat`, of a reference. -/
def clearThreatRef (env : Env U) (t : ThreatState H U) (owner : U) (id : RefId) :
    Except Fault (ThreatState H U) := do
  let t ← t.unregisterAndFree R id
  if (t.manager owner).currentVictimRef.isNone then t.updateVictim R env owner else .ok t

/-- `ThreatManager::ClearThreat`, of a target. -/
def clearThreat (env : Env U) (t : ThreatState H U) (owner target : U) :
    Except Fault (ThreatState H U) :=
  match (t.myRefs owner).lookup target with
  | none => .ok t
  | some id => t.clearThreatRef R env owner id

/-- `ThreatManager::ClearAllThreat`. Its loop takes no more rounds than the list has entries. -/
def clearAllThreat (env : Env U) (t : ThreatState H U) (owner : U) :
    Except Fault (ThreatState H U) :=
  let t := t.modifyManager owner fun m => { m with ownerEngaged := false }
  drain (fun t : ThreatState H U => (env.visit (t.myRefs owner)).head?)
    (fun t pair => t.unregisterAndFree R pair.2)
    .endless (t.myRefs owner).entries.length t

/-- `ThreatManager::RemoveMeFromThreatLists`, with the same bound on its loop. -/
def removeMeFromThreatLists (env : Env U) (t : ThreatState H U) (owner : U) :
    Except Fault (ThreatState H U) :=
  drain (fun t : ThreatState H U => (env.visit (t.byMeRefs owner)).head?)
    (fun t pair => do
      let r ← t.deref pair.2
      t.clearThreat R env r.owner owner)
    .endless (t.byMeRefs owner).entries.length t

/-! ## Operations over whole lists -/

def fixateTarget (t : ThreatState H U) (owner : U) (target : Option U) : ThreatState H U :=
  t.modifyManager owner fun m =>
    { m with fixateRef := target.bind fun u => m.myThreatListEntries.lookup u }

def scaleThreat (t : ThreatState H U) (owner target : U) (factor : ℚ) :
    Except Fault (ThreatState H U) :=
  match (t.myRefs owner).lookup target with
  | none => .ok t
  | some id => t.refScaleThreat R id (max factor 0)

def resetAllThreat (env : Env U) (t : ThreatState H U) (owner : U) :
    Except Fault (ThreatState H U) :=
  (env.visit (t.myRefs owner)).foldlM (fun t pair => t.refScaleThreat R pair.2 0) t

def evaluateSuppressed (env : Env U) (t : ThreatState H U) (owner : U) (canExpire : Bool) :
    Except Fault (ThreatState H U) :=
  (env.visit (t.byMeRefs owner)).foldlM
    (fun t pair => t.refEvaluateSuppressed R env canExpire pair.2) t

/-- The taunt state of a unit among the casters of taunt auras: the last of its auras counts, each
above the ones before it. -/
def tauntStateOf (casters : List U) (u : U) : ℤ :=
  match casters.reverse.idxOf? u with
  | none => tauntStateNone
  | some i => tauntStateTaunt + (casters.length - 1 - i : ℕ)

def tauntUpdate (env : Env U) (t : ThreatState H U) (owner : U) :
    Except Fault (ThreatState H U) := do
  let t ← (env.visit (t.myRefs owner)).foldlM
    (fun t pair => t.refUpdateTauntState R env pair.2
      (tauntStateOf (env.tauntCasters owner) pair.1)) t
  t.evaluateSuppressed R env owner true

/-- `ThreatManager::UpdateMyTempModifiers`. The direction of the first entry is told to every
list. -/
def updateMyTempModifiers (env : Env U) (t : ThreatState H U) (owner : U) :
    Except Fault (ThreatState H U) :=
  let mod := (env.totalThreatAuras owner).sum
  match env.visit (t.byMeRefs owner) with
  | [] => .ok t
  | first :: rest => do
    let r ← t.deref first.2
    let isIncrease := decide (r.tempModifier < mod)
    (first :: rest).foldlM (fun t pair => t.refSetTempModifier R mod isIncrease pair.2) t

/-! ## Putting references in -/

def putThreatListRef (t : ThreatState H U) (u guid : U) (id : RefId) :
    Except Fault (ThreatState H U) :=
  if ((t.myRefs u).lookup guid).isSome then .error .duplicateThreatReference
  else .ok (t.modifyManager u fun m =>
    { m with
      needClientUpdate := true
      myThreatListEntries := m.myThreatListEntries.insert guid id
      sortedThreatList := H.push (t.key R) m.sortedThreatList id })

def putThreatenedByMeRef (t : ThreatState H U) (u guid : U) (id : RefId) :
    Except Fault (ThreatState H U) :=
  if ((t.byMeRefs u).lookup guid).isSome then .error .duplicateThreatenedByMe
  else .ok (t.modifyManager u fun m =>
    { m with threatenedByMe := m.threatenedByMe.insert guid id })

/-- The last step of `AddThreat`: a new entry of the owner's list, and its first threat. The owner
is engaged from then on. -/
def newEntry (env : Env U) (t : ThreatState H U) (owner target : U) (amount : ℚ) :
    Except Fault (ThreatState H U) := do
  let r : ThreatReference U := ⟨owner, target, .offline, 0, 0, tauntStateNone⟩
  let r := { r with online := r.onlineState env }
  let id := t.nextRef
  let t := { t with refs := Function.update t.refs id (some r), nextRef := id + 1 }
  let t ← t.putThreatListRef R owner target id
  let t ← t.putThreatenedByMeRef target owner id
  let t ← t.refUpdateOffline R env id
  let r ← t.deref id
  let t ← (if r.isOnline then t.refAddThreat R id amount else .ok t)
  if (t.manager owner).ownerEngaged then .ok t
  else (t.modifyManager owner fun m => { m with ownerEngaged := true }).updateVictim R env owner

/-- The part of `AddThreat` for a target that is on the list: a suppressed entry may come back
online first, and an entry that is online gets the threat. -/
def addToEntry (env : Env U) (t : ThreatState H U) (id : RefId) (amount : ℚ) :
    Except Fault (ThreatState H U) := do
  let r ← t.deref id
  let t :=
    if r.isSuppressed && !r.shouldBeSuppressed env then
      t.writeNotify R id r { r with online := .online } .increased
    else t
  let r ← t.deref id
  if r.isOnline then t.refAddThreat R id amount else .ok t

end ThreatState

end Sunstrider.Combat
