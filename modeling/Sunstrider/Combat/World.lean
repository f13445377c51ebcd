import Sunstrider.Combat.ThreatManager
import Sunstrider.Lib.Word

/-!
# The combat and threat systems together

The operations in which the two systems call each other: `EndCombat` clears threat before it drops its
reference, and `AddThreat` begins combat before it makes an entry. `Op` lists the operations that the
rest of the server calls, and `step` runs one of them. The redirection of threat, which `AddThreat`
reads, is at the end.
-/

namespace Sunstrider.Combat

open Sunstrider.Lib (MutableHeap Rounding drain)

variable {U : Type} [DecidableEq U]

/-- Both sides of the world. -/
structure World (H : MutableHeap RefId ThreatKey) (U : Type) where
  combat : CombatState U
  threat : ThreatState H U

namespace World

variable {H : MutableHeap RefId ThreatKey} (R : Rounding)

/-- No combat and no threat. -/
def initial (canHave : U → Bool) (redirects : U → List (U × ℕ)) : World H U :=
  ⟨CombatState.initial, ThreatState.initial canHave redirects⟩

/-! ## Ending combat -/

def endCombat (env : Env U) (w : World H U) (id : RefId) : Except Fault (World H U) := do
  let ref ← w.combat.deref id
  let threat ← w.threat.clearThreat R env ref.first ref.second
  let threat ← threat.clearThreat R env ref.second ref.first
  let combat ← w.combat.dropReference id
  .ok ⟨combat, threat⟩

/-- One round of the loops that walk a map of references and end some of them. `keep` answers
`none` for a reference that ends; its entry is erased by hand first, for the iterator's sake. -/
def sweepRound (env : Env U) (owner : U) (k : Bool)
    (keep : CombatReference U → Option (CombatReference U)) (w : World H U)
    (pair : Sigma fun _ : U => RefId) : Except Fault (World H U) := do
  let ref ← w.combat.deref pair.2
  match keep ref with
  | some ref => .ok { w with combat := w.combat.setRef pair.2 ref }
  | none => endCombat R env { w with combat := w.combat.purgeReference owner pair.1 k } pair.2

/-- The loops that walk a map of references and end some of them. -/
def sweep (env : Env U) (owner : U) (k : Bool)
    (keep : CombatReference U → Option (CombatReference U)) (w : World H U) :
    Except Fault (World H U) :=
  (env.visit (w.combat.refsOf owner k)).foldlM (sweepRound R env owner k keep) w

/-- `CombatManager::Update`: only the first unit of a reference counts its timer down. -/
def combatUpdate (env : Env U) (w : World H U) (owner : U) (tdiff : ℕ) :
    Except Fault (World H U) :=
  w.sweep R env owner true fun ref => if ref.first = owner then ref.update tdiff else some ref

/-- What `EndCombatBeyondRange` keeps. -/
def inRange (env : Env U) (range : ℚ) (ref : CombatReference U) : Option (CombatReference U) :=
  if env.isWithinDistInMap ref.first ref.second range then some ref else none

def endCombatBeyondRange (env : Env U) (w : World H U) (owner : U) (range : ℚ)
    (includingPvP : Bool) : Except Fault (World H U) := do
  let w ← w.sweep R env owner false (inRange env range)
  if !includingPvP then .ok w else w.sweep R env owner true (inRange env range)

/-- `while (!refs.empty()) refs.begin()->second->EndCombat()`, in no more rounds than there are
references. -/
def endAllOf (env : Env U) (w : World H U) (owner : U) (k : Bool) : Except Fault (World H U) :=
  drain (fun w : World H U => (env.visit (w.combat.refsOf owner k)).head?)
    (fun w pair => w.endCombat R env pair.2)
    .endless (w.combat.refsOf owner k).entries.length w

def endAllPvECombat (env : Env U) (w : World H U) (owner : U) : Except Fault (World H U) := do
  let threat ← w.threat.removeMeFromThreatLists R env owner
  let threat ← threat.clearAllThreat R env owner
  endAllOf R env { w with threat := threat } owner false

def endAllPvPCombat (env : Env U) (w : World H U) (owner : U) : Except Fault (World H U) :=
  w.endAllOf R env owner true

/-! ## Adding threat -/

/-- `Unit::IsEngaged`. -/
def isEngaged (w : World H U) (u : U) : Bool :=
  if (w.threat.manager u).ownerCanHaveThreatList then (w.threat.manager u).ownerEngaged
  else w.combat.isInCombat u

def setInCombatWith (env : Env U) (w : World H U) (owner who : U) :
    Except Fault (Bool × World H U) := do
  let (b, combat) ← w.combat.setInCombatWith env owner who
  .ok (b, { w with combat := combat })

/-- `AddThreat` for an owner that cannot have a threat list: combat with the target, and with the
units that the target's threat is redirected to. -/
def addCombatOnly (env : Env U) (w : World H U) (owner target : U) :
    Except Fault (World H U) := do
  let (b, w) ← w.setInCombatWith env owner target
  if !b then .ok w
  else
    (w.threat.manager target).redirectInfo.foldlM (fun w pair =>
      if w.combat.isInCombatWith owner pair.1 then .ok w
      else if !env.getUnit owner pair.1 then .ok w
      else do
        let (_, w) ← w.setInCombatWith env owner pair.1
        .ok w) w

/-- The end of `AddThreat`, from "ensure we're in combat" on. -/
def applyThreat (env : Env U) (w : World H U) (owner target : U) (amount : ℚ) :
    Except Fault (World H U) := do
  let (b, w) ← w.setInCombatWith env owner target
  if !b then .ok w
  else
    let threat ← (match (w.threat.myRefs owner).lookup target with
      | some id => w.threat.addToEntry R env id amount
      | none => w.threat.newEntry R env owner target amount)
    .ok { w with threat := threat }

/-- `ThreatManager::AddThreat`, over what it does about redirections. -/
def addThreatWith
    (redirect : World H U → ℚ → Except Fault (ℚ × World H U))
    (env : Env U) (w : World H U) (owner target : U) (amount : ℚ) (spell : Option SpellInfo)
    (ignoreModifiers : Bool) : Except Fault (World H U) :=
  if spell.any fun s => s.noThreat || (!w.isEngaged owner && s.noInitialAggro) then .ok w
  else if !(w.threat.manager owner).ownerCanHaveThreatList then w.addCombatOnly env owner target
  else do
    let amount :=
      if ignoreModifiers then amount else env.calculateModifiedThreat amount target spell
    let (amount, w) ← redirect w amount
    w.applyThreat R env owner target amount

def calculatePct (base : ℚ) (pct : ℕ) : ℚ := R.div (R.mul base (R.round pct)) 100

/-- The loop of `AddThreat` over the target's redirections. A redirection's own `AddThreat` ignores
modifiers and redirections. -/
def redirectThreat (env : Env U) (owner target : U) (spell : Option SpellInfo) (w : World H U)
    (amount : ℚ) : Except Fault (ℚ × World H U) :=
  if amount ≤ 0 then .ok (amount, w)
  else
    (w.threat.manager target).redirectInfo.foldlM (fun (rest, w) pair =>
      if ((w.threat.myRefs owner).lookup pair.1).isSome || env.getUnit owner pair.1 then do
        let amountRedirected := calculatePct R amount pair.2
        let w ← addThreatWith R (fun w a => .ok (a, w)) env w owner pair.1 amountRedirected spell true
        .ok (R.sub rest amountRedirected, w)
      else .ok (rest, w)) (amount, w)

def addThreat (env : Env U) (w : World H U) (owner target : U) (amount : ℚ)
    (spell : Option SpellInfo) (ignoreModifiers ignoreRedirects : Bool) :
    Except Fault (World H U) :=
  addThreatWith R
    (if ignoreRedirects then fun w a => .ok (a, w) else redirectThreat R env owner target spell)
    env w owner target amount spell ignoreModifiers

/-- The entry that `MatchUnitThreatToHighestThreat` takes for the highest, if it is available. -/
def highestThreat (t : ThreatState H U) (owner : U) : Except Fault (Option ℚ) :=
  match H.ordered (t.key R) (t.sorted owner) with
  | [] => .ok none
  | first :: rest => do
    let highest ← t.deref first
    if !highest.isAvailable then .ok none
    else
      match rest with
      | [] => .ok (some (highest.getThreat R))
      | second :: _ => do
        let a ← t.deref second
        if highest.isTaunting && a.isAvailable && highest.getThreat R < a.getThreat R then
          .ok (some (a.getThreat R))
        else .ok (some (highest.getThreat R))

def matchUnitThreatToHighestThreat (env : Env U) (w : World H U) (owner target : U) :
    Except Fault (World H U) := do
  match ← highestThreat R w.threat owner with
  | none => .ok w
  | some highest => do
    let current ← (match (w.threat.myRefs owner).lookup target with
      | none => .ok 0
      | some id => do
        let r ← w.threat.deref id
        .ok (r.getThreat R))
    w.addThreat R env owner target (R.sub highest current) none true true

/-! ## The operations, and their steps -/

/-- What the rest of the server asks of the two managers. An operation on a reference names it by a
unit whose manager holds it and the unit at its other end. -/
inductive Op (U : Type)
  | setInCombatWith (owner who : U)
  | inheritCombatStatesFrom (owner who : U)
  | suppressPvPCombat (owner : U)
  | suppressFor (owner other who : U)
  | refresh (owner other : U)
  | combatUpdate (owner : U) (tdiff : ℕ)
  | endCombat (owner other : U) (isPvP : Bool)
  | endCombatBeyondRange (owner : U) (range : ℚ) (includingPvP : Bool)
  | endAllPvECombat (owner : U)
  | endAllPvPCombat (owner : U)
  | addThreat (owner target : U) (amount : ℚ) (spell : Option SpellInfo)
      (ignoreModifiers ignoreRedirects : Bool)
  | matchUnitThreatToHighestThreat (owner target : U)
  | scaleThreat (owner target : U) (factor : ℚ)
  | resetAllThreat (owner : U)
  | clearThreat (owner target : U)
  | clearAllThreat (owner : U)
  | removeMeFromThreatLists (owner : U)
  | fixateTarget (owner : U) (target : Option U)
  | tauntUpdate (owner : U)
  | evaluateSuppressed (owner : U) (canExpire : Bool)
  | updateMyTempModifiers (owner : U)
  | threatUpdate (owner : U) (tdiff : ℕ)
  | updateVictim (owner : U)
  | refAddThreat (owner victim : U) (amount : ℚ)
  | refScaleThreat (owner victim : U) (factor : ℚ)
  | refUpdateOffline (owner victim : U)

/-- An operation on a combat reference that the owner's manager holds. -/
def onCombatRef (w : World H U) (owner other : U) (k : Bool)
    (f : RefId → Except Fault (World H U)) : Except Fault (World H U) :=
  match (w.combat.refsOf owner k).lookup other with
  | none => .ok w
  | some id => f id

/-- An operation on a threat reference of the owner's list. -/
def onThreatRef (w : World H U) (owner victim : U)
    (f : RefId → Except Fault (ThreatState H U)) : Except Fault (ThreatState H U) :=
  match (w.threat.myRefs owner).lookup victim with
  | none => .ok w.threat
  | some id => f id

/-- The combat side alone. -/
def inCombat (w : World H U) (f : Except Fault (CombatState U)) : Except Fault (World H U) := do
  let combat ← f
  .ok { w with combat := combat }

/-- The threat side alone. -/
def inThreat (w : World H U) (f : Except Fault (ThreatState H U)) : Except Fault (World H U) := do
  let threat ← f
  .ok { w with threat := threat }

/-- One operation, at a moment of the world. `SuppressFor` is called for one of the two units of a
reference, and does nothing here for another. -/
def step (w : World H U) : Env U × Op U → Except Fault (World H U)
  | (env, .setInCombatWith a b) => do
    let (_, w) ← w.setInCombatWith env a b
    .ok w
  | (env, .inheritCombatStatesFrom a b) => w.inCombat (w.combat.inheritCombatStatesFrom env a b)
  | (env, .suppressPvPCombat a) => w.inCombat (w.combat.suppressPvPCombat env a)
  | (_, .suppressFor a b who) =>
    if who = a ∨ who = b then
      w.onCombatRef a b true fun id => w.inCombat (w.combat.suppressFor id who)
    else .ok w
  | (_, .refresh a b) => w.onCombatRef a b true fun id => w.inCombat (w.combat.refresh id)
  | (env, .combatUpdate a tdiff) => w.combatUpdate R env a tdiff
  | (env, .endCombat a b k) => w.onCombatRef a b k fun id => w.endCombat R env id
  | (env, .endCombatBeyondRange a range pvp) => w.endCombatBeyondRange R env a range pvp
  | (env, .endAllPvECombat a) => w.endAllPvECombat R env a
  | (env, .endAllPvPCombat a) => w.endAllPvPCombat R env a
  | (env, .addThreat a b amount spell noMod noRedirect) =>
    w.addThreat R env a b amount spell noMod noRedirect
  | (env, .matchUnitThreatToHighestThreat a b) => w.matchUnitThreatToHighestThreat R env a b
  | (_, .scaleThreat a b factor) => w.inThreat (w.threat.scaleThreat R a b factor)
  | (env, .resetAllThreat a) => w.inThreat (w.threat.resetAllThreat R env a)
  | (env, .clearThreat a b) => w.inThreat (w.threat.clearThreat R env a b)
  | (env, .clearAllThreat a) => w.inThreat (w.threat.clearAllThreat R env a)
  | (env, .removeMeFromThreatLists a) => w.inThreat (w.threat.removeMeFromThreatLists R env a)
  | (_, .fixateTarget a b) => .ok { w with threat := w.threat.fixateTarget a b }
  | (env, .tauntUpdate a) => w.inThreat (w.threat.tauntUpdate R env a)
  | (env, .evaluateSuppressed a canExpire) =>
    w.inThreat (w.threat.evaluateSuppressed R env a canExpire)
  | (env, .updateMyTempModifiers a) => w.inThreat (w.threat.updateMyTempModifiers R env a)
  | (env, .threatUpdate a tdiff) => w.inThreat (w.threat.update R env a tdiff)
  | (env, .updateVictim a) => w.inThreat (w.threat.updateVictim R env a)
  | (_, .refAddThreat a b amount) =>
    w.inThreat (w.onThreatRef a b fun id => w.threat.refAddThreat R id amount)
  | (_, .refScaleThreat a b factor) =>
    w.inThreat (w.onThreatRef a b fun id => w.threat.refScaleThreat R id factor)
  | (env, .refUpdateOffline a b) =>
    w.inThreat (w.onThreatRef a b fun id => w.threat.refUpdateOffline R env id)

end World

end Sunstrider.Combat

/-!
## Threat redirection

The part of `ThreatManager` that decides where the threat of its owner goes: `_redirectRegistry` holds the
percentages that spells registered for their victims, and `UpdateRedirectInfo` makes of them the list
`_redirectInfo`, which `AddThreat` reads. The maps of the registry are walked in any order, and each update
may walk them in another one. A percentage is a `uint32`, and a failed `ASSERT` is a fault.

`redirectByIndex` is the loop of `AddThreat` over that list as it is written, by an index into the list of
the moment. `World.redirectThreat` walks the list that it finds at the start.
-/

namespace Sunstrider.Combat

open Sunstrider.Lib (MutableHeap Rounding addU32 subU32)

variable {U : Type}

/-! ## The registry -/

/-- `_redirectRegistry`: the percentage of each victim, for each spell. -/
abbrev RedirectRegistry (U : Type) := AList fun _ : ℕ => AList fun _ : U => ℕ

/-- The redirections of one manager. -/
structure Redirects (U : Type) where
  registry : RedirectRegistry U
  redirectInfo : List (U × ℕ)

/-- No spell redirects any threat. -/
def Redirects.none : Redirects U := ⟨∅, []⟩

/-- The orders in which one update walks the maps. The inner maps of two spells may be walked in two ways. -/
structure RedirectVisit (U : Type) where
  spells : RedirectRegistry U → List (Sigma fun _ : ℕ => AList fun _ : U => ℕ)
  victims : ℕ → (AList fun _ : U => ℕ) → List (Sigma fun _ : U => ℕ)
  spells_perm : ∀ m, (spells m).Perm m.entries
  victims_perm : ∀ spellId m, (victims spellId m).Perm m.entries

/-- The victims and their percentages, as the two loops of `UpdateRedirectInfo` come to them. -/
def RedirectVisit.walk (visit : RedirectVisit U) (registry : RedirectRegistry U) : List (U × ℕ) :=
  (visit.spells registry).flatMap fun p => (visit.victims p.1 p.2).map fun q => (q.1, q.2)

/-- `ASSERT(totalPct <= 100)`. -/
inductive RedirectFault
  | totalPct
  deriving DecidableEq, Repr

/-- The loop of `UpdateRedirectInfo`: the list so far, its total, and whether the function has returned. -/
structure RedirectLoop (U : Type) where
  redirectInfo : List (U × ℕ)
  totalPct : ℕ
  returned : Bool

/-- The body of the inner loop. -/
def redirectRound (s : RedirectLoop U) (victimPair : U × ℕ) : Except RedirectFault (RedirectLoop U) :=
  if s.returned then .ok s
  else
    let thisPct := min (subU32 100 s.totalPct) victimPair.2
    if 0 < thisPct then
      let totalPct := addU32 s.totalPct thisPct
      if totalPct ≤ 100 then
        .ok ⟨s.redirectInfo ++ [(victimPair.1, thisPct)], totalPct, totalPct == 100⟩
      else .error .totalPct
    else .ok s

namespace Redirects

def updateRedirectInfo (visit : RedirectVisit U) (registry : RedirectRegistry U) :
    Except RedirectFault (Redirects U) := do
  let s ← (visit.walk registry).foldlM redirectRound ⟨[], 0, false⟩
  .ok ⟨registry, s.redirectInfo⟩

variable [DecidableEq U]

def registerRedirectThreat (visit : RedirectVisit U) (r : Redirects U) (spellId : ℕ) (victim : U) (pct : ℕ) :
    Except RedirectFault (Redirects U) :=
  updateRedirectInfo visit
    (r.registry.insert spellId (((r.registry.lookup spellId).getD ∅).insert victim pct))

/-- `ThreatManager::UnregisterRedirectThreat`, of a spell. -/
def unregisterRedirectSpell (visit : RedirectVisit U) (r : Redirects U) (spellId : ℕ) :
    Except RedirectFault (Redirects U) :=
  if (r.registry.lookup spellId).isNone then .ok r
  else updateRedirectInfo visit (r.registry.erase spellId)

/-- `ThreatManager::UnregisterRedirectThreat`, of a spell and a victim. -/
def unregisterRedirectThreat (visit : RedirectVisit U) (r : Redirects U) (spellId : ℕ) (victim : U) :
    Except RedirectFault (Redirects U) :=
  match r.registry.lookup spellId with
  | .none => .ok r
  | .some victimMap =>
    if (victimMap.lookup victim).isNone then .ok r
    else updateRedirectInfo visit (r.registry.insert spellId (victimMap.erase victim))

/-- The calls that change the redirections. -/
inductive Op (U : Type)
  | register (spellId : ℕ) (victim : U) (pct : ℕ)
  | unregisterSpell (spellId : ℕ)
  | unregister (spellId : ℕ) (victim : U)

/-- One call, with the orders in which it walks the maps. -/
def step (r : Redirects U) : RedirectVisit U × Op U → Except RedirectFault (Redirects U)
  | (visit, .register spellId victim pct) => r.registerRedirectThreat visit spellId victim pct
  | (visit, .unregisterSpell spellId) => r.unregisterRedirectSpell visit spellId
  | (visit, .unregister spellId victim) => r.unregisterRedirectThreat visit spellId victim

end Redirects

/-! ## The loop of `AddThreat` -/

namespace World

variable [DecidableEq U] {H : MutableHeap RefId ThreatKey} (R : Rounding)

/-- One round: a victim that is found gets its share of `origAmount`, with neither modifiers nor
redirections, and the share is taken off the amount. -/
def redirectShare (env : Env U) (owner : U) (spell : Option SpellInfo) (origAmount : ℚ) (rest : ℚ)
    (w : World H U) (pair : U × ℕ) : Except Fault (ℚ × World H U) :=
  if ((w.threat.myRefs owner).lookup pair.1).isSome || env.getUnit owner pair.1 then do
    let amountRedirected := calculatePct R origAmount pair.2
    let w ← addThreatWith R (fun w a => .ok (a, w)) env w owner pair.1 amountRedirected spell true
    .ok (R.sub rest amountRedirected, w)
  else .ok (rest, w)

/-- `for (size_t i = 0; i < redirInfo.size(); ++i)`: the list is that of the moment, and it may have changed
since the last round. -/
def redirectByIndex (env : Env U) (owner target : U) (spell : Option SpellInfo) (origAmount : ℚ) :
    ℕ → ℕ → ℚ → World H U → Except Fault (ℚ × World H U)
  | 0, _, _, _ => .error .endless
  | fuel + 1, i, rest, w =>
    match (w.threat.manager target).redirectInfo[i]? with
    | none => .ok (rest, w)
    | some pair => do
      let (rest, w) ← redirectShare R env owner spell origAmount rest w pair
      redirectByIndex env owner target spell origAmount fuel (i + 1) rest w

/-- `ThreatManager::AddThreat`, with its loop by index and a bound on the rounds. -/
def addThreatByIndex (fuel : ℕ) (env : Env U) (w : World H U) (owner target : U) (amount : ℚ)
    (spell : Option SpellInfo) (ignoreModifiers ignoreRedirects : Bool) : Except Fault (World H U) :=
  addThreatWith R
    (fun w a =>
      if !ignoreRedirects && decide (0 < a) then redirectByIndex R env owner target spell a fuel 0 a w
      else .ok (a, w))
    env w owner target amount spell ignoreModifiers

end World

end Sunstrider.Combat
