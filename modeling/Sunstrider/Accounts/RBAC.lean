import Mathlib.Data.List.AList
import Mathlib.Data.Finset.Lattice.Fold
import Mathlib.Data.Finset.Max
import Sunstrider.Lib.Run

/-!
# Permissions of an account

`RBAC.cpp`, with the tables of `AccountMgr.cpp` that it reads: the known permissions, each with the
permissions linked to it, and the default permissions of each security level. An `std::set` is a finite
set, whose `begin` is its least element.

Left out: names, logs, and what is saved to the database. The rows that `LoadFromDB` reads are an input.
-/

namespace Sunstrider.Accounts

open Sunstrider.Lib (drain)

inductive Fault
  /-- A loop that does not come to its end. -/
  | endless
  deriving DecidableEq

inductive RBACCommandResult
  | ok
  | cantAddAlreadyAdded
  | cantRevokeNotInList
  | inGrantedList
  | inDeniedList
  | idDoesNotExists
  deriving DecidableEq

abbrev RBACPermissionContainer : Type := Finset ℕ

/-- The tables of `AccountMgr`. -/
structure AccountMgr where
  /-- The linked permissions of each known permission. -/
  permissions : AList fun _ : ℕ => RBACPermissionContainer
  /-- The default permissions of a security level, in their order. -/
  defaultPermissions : UInt8 → List ℕ

namespace AccountMgr

/-- `GetRBACPermission`: the linked permissions, where the id is known. -/
def getRBACPermission (m : AccountMgr) (permissionId : ℕ) : Option RBACPermissionContainer :=
  m.permissions.lookup permissionId

def getRBACDefaultPermissions (m : AccountMgr) (secLevel : UInt8) : List ℕ :=
  m.defaultPermissions secLevel

/-- Every id that the tables or a container name. -/
def allIds (m : AccountMgr) (permissions : RBACPermissionContainer) : RBACPermissionContainer :=
  permissions ∪ m.permissions.keys.toFinset ∪ m.permissions.entries.foldr (fun e s => e.2 ∪ s) ∅

end AccountMgr

/-! ## ExpandPermissions -/

/-- The two containers of `ExpandPermissions`. -/
structure Expansion where
  toCheck : RBACPermissionContainer
  permissions : RBACPermissionContainer
  deriving DecidableEq

/-- `*toCheck.begin()`. -/
def Expansion.first (e : Expansion) : Option ℕ :=
  if h : e.toCheck.Nonempty then some (e.toCheck.min' h) else none

/-- One round of the loop of `ExpandPermissions`. -/
def Expansion.check (m : AccountMgr) (e : Expansion) (permissionId : ℕ) : Except Fault Expansion :=
  let toCheck := e.toCheck.erase permissionId
  match m.getRBACPermission permissionId with
  | none => .ok ⟨toCheck, e.permissions⟩
  | some linkedPerms =>
    let permissions := insert permissionId e.permissions
    .ok ⟨toCheck ∪ linkedPerms.filter (· ∉ permissions), permissions⟩

def expandPermissions (m : AccountMgr) (permissions : RBACPermissionContainer) :
    Except Fault RBACPermissionContainer := do
  let ids := (m.allIds permissions).card
  let e ← drain Expansion.first (Expansion.check m) .endless (ids * (ids + 1) + ids) ⟨permissions, ∅⟩
  .ok e.permissions

/-- `RBACData::RemovePermissions`: what is left of `permsTo`. -/
def removePermissions (permsFrom permsTo : RBACPermissionContainer) : RBACPermissionContainer :=
  permsTo \ permsFrom

/-! ## RBACData -/

structure RBACData where
  secLevel : UInt8
  grantedPerms : RBACPermissionContainer
  deniedPerms : RBACPermissionContainer
  globalPerms : RBACPermissionContainer
  deriving DecidableEq

namespace RBACData

def new (secLevel : UInt8) : RBACData := ⟨secLevel, ∅, ∅, ∅⟩

def hasPermission (d : RBACData) (permission : ℕ) : Bool := permission ∈ d.globalPerms

/-- `CalculateNewPermissions`. What `RemovePermissions` changes is the local container `revoked`. -/
def calculateNewPermissions (m : AccountMgr) (d : RBACData) : Except Fault RBACData := do
  let globalPerms ← expandPermissions m d.grantedPerms
  let revoked ← expandPermissions m d.deniedPerms
  let _revoked := removePermissions globalPerms revoked
  .ok { d with globalPerms := globalPerms }

/-- The permissions are calculated again, unless the call comes from `LoadFromDB`. -/
def calculateUnlessLoading (m : AccountMgr) (d : RBACData) (realmId : ℤ) :
    Except Fault (RBACCommandResult × RBACData) :=
  if realmId ≠ 0 then do
    let d ← d.calculateNewPermissions m
    .ok (.ok, d)
  else .ok (.ok, d)

def grantPermission (m : AccountMgr) (d : RBACData) (permissionId : ℕ) (realmId : ℤ) :
    Except Fault (RBACCommandResult × RBACData) :=
  if (m.getRBACPermission permissionId).isNone then .ok (.idDoesNotExists, d)
  else if permissionId ∈ d.deniedPerms then .ok (.inDeniedList, d)
  else if permissionId ∈ d.grantedPerms then .ok (.cantAddAlreadyAdded, d)
  else
    calculateUnlessLoading m { d with grantedPerms := insert permissionId d.grantedPerms } realmId

def denyPermission (m : AccountMgr) (d : RBACData) (permissionId : ℕ) (realmId : ℤ) :
    Except Fault (RBACCommandResult × RBACData) :=
  if (m.getRBACPermission permissionId).isNone then .ok (.idDoesNotExists, d)
  else if permissionId ∈ d.grantedPerms then .ok (.inGrantedList, d)
  else if permissionId ∈ d.deniedPerms then .ok (.cantAddAlreadyAdded, d)
  else calculateUnlessLoading m { d with deniedPerms := insert permissionId d.deniedPerms } realmId

def revokePermission (m : AccountMgr) (d : RBACData) (permissionId : ℕ) (realmId : ℤ) :
    Except Fault (RBACCommandResult × RBACData) :=
  if permissionId ∉ d.grantedPerms ∧ permissionId ∉ d.deniedPerms then
    .ok (.cantRevokeNotInList, d)
  else
    calculateUnlessLoading m
      { d with
        grantedPerms := d.grantedPerms.erase permissionId
        deniedPerms := d.deniedPerms.erase permissionId } realmId

def clearData (d : RBACData) : RBACData :=
  { d with grantedPerms := ∅, deniedPerms := ∅, globalPerms := ∅ }

/-- One row of the account's permissions: the permission, and whether it is granted. -/
def loadRow (m : AccountMgr) (d : RBACData) (row : ℕ × Bool) : Except Fault RBACData := do
  let (_, d) ← if row.2 then d.grantPermission m row.1 0 else d.denyPermission m row.1 0
  .ok d

/-- One default permission. -/
def loadDefault (m : AccountMgr) (d : RBACData) (permissionId : ℕ) : Except Fault RBACData := do
  let (_, d) ← d.grantPermission m permissionId 0
  .ok d

def loadFromDB (m : AccountMgr) (d : RBACData) (rows : List (ℕ × Bool)) : Except Fault RBACData := do
  let d ← rows.foldlM (loadRow m) d.clearData
  let d ← (m.getRBACDefaultPermissions d.secLevel).foldlM (loadDefault m) d
  d.calculateNewPermissions m

def setSecurityLevel (m : AccountMgr) (d : RBACData) (id : UInt8) (rows : List (ℕ × Bool)) :
    Except Fault RBACData :=
  loadFromDB m { d with secLevel := id } rows

/-! ## Steps -/

/-- A realm that is not 0, the mark of a call from `LoadFromDB`. -/
abbrev RealmId : Type := { realmId : ℤ // realmId ≠ 0 }

/-- What commands and the session do with the permissions of an account. -/
inductive Op
  | loadFromDB (rows : List (ℕ × Bool))
  | grant (permissionId : ℕ) (realmId : RealmId)
  | deny (permissionId : ℕ) (realmId : RealmId)
  | revoke (permissionId : ℕ) (realmId : RealmId)
  | setSecurityLevel (id : UInt8) (rows : List (ℕ × Bool))

def step (m : AccountMgr) (d : RBACData) : Op → Except Fault RBACData
  | .loadFromDB rows => d.loadFromDB m rows
  | .grant permissionId realmId => Prod.snd <$> d.grantPermission m permissionId realmId
  | .deny permissionId realmId => Prod.snd <$> d.denyPermission m permissionId realmId
  | .revoke permissionId realmId => Prod.snd <$> d.revokePermission m permissionId realmId
  | .setSecurityLevel id rows => d.setSecurityLevel m id rows

end RBACData

end Sunstrider.Accounts
