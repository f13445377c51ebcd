import Sunstrider.Utilities.Util

/-!
# Saved flights

`PlayerTaxi.cpp`, and what it asks of `ObjectMgr.cpp`. Which of the models of a mount is taken is random; the
tables hold what is taken.
-/

namespace Sunstrider.Player

open Utilities (atoul digits tokenizer)

inductive TaxiFault
  /-- A token behind the last one is read. -/
  | readsPastTokens
  /-- An `ASSERT` that fails. -/
  | assertion
  deriving DecidableEq

structure TaxiPathBySourceAndDestination where
  id : UInt32
  price : UInt32

structure TaxiNodesEntry where
  mountCreatureID₀ : UInt32
  mountCreatureID₁ : UInt32

/-- The tables of the game. -/
structure TaxiStores where
  taxiPathSetBySource : UInt32 → Option (UInt32 → Option TaxiPathBySourceAndDestination)
  taxiNodesStore : UInt32 → Option TaxiNodesEntry
  /-- `GetRandomValidModelId` of a creature template, if there is one. -/
  getRandomValidModelId : UInt32 → Option UInt32
  /-- What `GetCreatureModelRandomGender` makes of a model. -/
  modelRandomGender : UInt32 → UInt32

def alliance : UInt32 := 469

namespace TaxiStores

variable (stores : TaxiStores)

/-- `GetTaxiPath`: the path and its cost. -/
def getTaxiPath (source destination : UInt32) : UInt32 × UInt32 :=
  match stores.taxiPathSetBySource source with
  | none => (0, 0)
  | some pathSet =>
    match pathSet destination with
    | none => (0, 0)
    | some path => (path.id, path.price)

def getTaxiMountDisplayId (id team : UInt32) (allowedAltTeam : Bool) : UInt32 :=
  match stores.taxiNodesStore id with
  | none => stores.modelRandomGender 0
  | some node =>
    let mountEntry := if team = alliance then node.mountCreatureID₁ else node.mountCreatureID₀
    -- simply reverse the selection
    let mountEntry :=
      if mountEntry = 0 ∧ allowedAltTeam then
        if team = alliance then node.mountCreatureID₀ else node.mountCreatureID₁
      else mountEntry
    match stores.getRandomValidModelId mountEntry with
    | none => stores.modelRandomGender 0
    | some mountId => if mountId = 0 then 0 else stores.modelRandomGender mountId

end TaxiStores

structure PlayerTaxi where
  taxiDestinations : List UInt32
  flightMasterFactionId : UInt32
  deriving DecidableEq

namespace PlayerTaxi

variable (stores : TaxiStores) (taxi : PlayerTaxi)

def getTaxiSource : UInt32 := taxi.taxiDestinations.headD 0

/-- The check of the paths: one between each node and the next. -/
def hasPaths : List UInt32 → Bool
  | [] | [_] => true
  | a :: b :: nodes => (stores.getTaxiPath a b).1 ≠ 0 && hasPaths (b :: nodes)

def loadTaxiDestinationsFromString (values : List Char) (team : UInt32) : Except TaxiFault (Bool × PlayerTaxi) :=
  match tokenizer ' ' [] values with
  -- The iterator is moved on, although there is no token.
  | [] => .error .readsPastTokens
  | faction :: nodes =>
    let taxi : PlayerTaxi := ⟨nodes.map atoul, atoul faction⟩
    if taxi.taxiDestinations = [] then .ok (true, taxi)
    else if taxi.taxiDestinations.length < 2 then .ok (false, taxi)
    else if !hasPaths stores taxi.taxiDestinations then .ok (false, taxi)
    -- can't load taxi path without mount set (quest taxi path?)
    else if stores.getTaxiMountDisplayId taxi.getTaxiSource team true = 0 then .ok (false, taxi)
    else .ok (true, taxi)

def saveTaxiDestinationsToString : Except TaxiFault (List Char) :=
  if taxi.taxiDestinations = [] then .ok []
  else if taxi.taxiDestinations.length < 2 then .error .assertion
  else
    .ok (digits taxi.flightMasterFactionId ++ ' ' ::
      taxi.taxiDestinations.flatMap fun destination => digits destination ++ [' '])

end PlayerTaxi

end Sunstrider.Player
