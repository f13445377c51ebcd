import Sunstrider.Accounts.RBAC
import Sunstrider.Lib.Search

/-!
# Granted and denied permissions

`ExpandPermissions` comes to its end on every graph, and finds the known permissions that can be reached
(`expandPermissions_spec`). `CalculateNewPermissions` hands the containers to `RemovePermissions` in the
wrong order, so what is denied is never taken from what is granted: an account has every permission that
a granted one reaches. That is right in the states in which no permission is reached from both sides, and
in no others (`sound_iff_separates`).
-/

namespace Sunstrider.Accounts

open Sunstrider.Lib

variable {m : AccountMgr}

/-- The known permissions that a container leads to. -/
abbrev Reaches (m : AccountMgr) (permissions : RBACPermissionContainer) (p : ℕ) : Prop :=
  Reached m.getRBACPermission permissions p

/-! ## ExpandPermissions -/

theorem mem_foldr_union {entries : List (Sigma fun _ : ℕ => RBACPermissionContainer)}
    {e : Sigma fun _ : ℕ => RBACPermissionContainer} (h : e ∈ entries) :
    e.2 ⊆ entries.foldr (fun e s => e.2 ∪ s) ∅ := by
  induction entries with
  | nil => cases h
  | cons e' entries ih =>
    rcases List.mem_cons.mp h with rfl | h
    · exact Finset.subset_union_left
    · exact (ih h).trans Finset.subset_union_right

variable {p : ℕ}

theorem linked_subset_allIds {linkedPerms permissions : RBACPermissionContainer}
    (h : m.getRBACPermission p = some linkedPerms) : linkedPerms ⊆ m.allIds permissions :=
  (mem_foldr_union (AList.mem_lookup_iff.mp h)).trans Finset.subset_union_right

variable {e : Expansion}

theorem Expansion.mem_of_first (h : e.first = some p) : p ∈ e.toCheck := by
  simp only [Expansion.first, Option.dite_none_right_eq_some, Option.some.injEq] at h
  obtain ⟨hne, rfl⟩ := h
  exact Finset.min'_mem _ hne

theorem Expansion.toCheck_of_first (h : e.first = none) : e.toCheck = ∅ := by
  simpa [Expansion.first] using h

theorem check_spec {all permissions : RBACPermissionContainer}
    (hall : ∀ p linkedPerms, m.getRBACPermission p = some linkedPerms → linkedPerms ⊆ all)
    (h : Searching m.getRBACPermission all permissions e.toCheck e.permissions) (hp : p ∈ e.toCheck)
    :
    Yields (e.check m p) fun e' =>
      Searching m.getRBACPermission all permissions e'.toCheck e'.permissions ∧
        Searching.weight all e'.toCheck e'.permissions <
          Searching.weight all e.toCheck e.permissions := by
  rw [Expansion.check]
  cases hlinked : m.getRBACPermission p with
  | none => exact .ok ⟨h.skip hlinked, Searching.weight_skip hp⟩
  | some linkedPerms =>
    have hsub := hall p linkedPerms hlinked
    exact .ok ⟨h.visit hp hlinked hsub, h.weight_visit hp hlinked hsub⟩

/-- **What `ExpandPermissions` does**, on every graph. -/
theorem expandPermissions_spec (m : AccountMgr) (permissions : RBACPermissionContainer) :
    Yields (expandPermissions m permissions) fun r => ∀ p, p ∈ r ↔ Reaches m permissions p := by
  have hall : ∀ p linkedPerms, m.getRBACPermission p = some linkedPerms →
      linkedPerms ⊆ m.allIds permissions := fun _ _ h => linked_subset_allIds h
  have hbegin : Searching m.getRBACPermission (m.allIds permissions) permissions permissions ∅ :=
    .begin (Finset.subset_union_left.trans Finset.subset_union_left)
  refine Yields.bind (Yields.drain
    (fun e => Searching m.getRBACPermission (m.allIds permissions) permissions
      e.toCheck e.permissions)
    (fun e => Searching.weight (m.allIds permissions) e.toCheck e.permissions)
    (fun e p hinv hfirst => check_spec hall hinv (Expansion.mem_of_first hfirst))
    _ hbegin hbegin.weight_le) fun e he => .ok fun p => ?_
  obtain ⟨hinv, hfirst⟩ := he
  rw [Expansion.toCheck_of_first hfirst] at hinv
  exact hinv.found_iff

/-! ## The lists of an operation -/

/-- The granted and the denied permissions. -/
structure Lists where
  granted : RBACPermissionContainer
  denied : RBACPermissionContainer
  deriving DecidableEq

namespace Lists

def grant (m : AccountMgr) (l : Lists) (p : ℕ) : Lists :=
  if (m.getRBACPermission p).isSome ∧ p ∉ l.denied then { l with granted := insert p l.granted }
  else l

def deny (m : AccountMgr) (l : Lists) (p : ℕ) : Lists :=
  if (m.getRBACPermission p).isSome ∧ p ∉ l.granted then { l with denied := insert p l.denied }
  else l

def revoke (l : Lists) (p : ℕ) : Lists := ⟨l.granted.erase p, l.denied.erase p⟩

/-- The lists that the rows of an account and the default permissions of a level make. -/
def load (m : AccountMgr) (secLevel : UInt8) (rows : List (ℕ × Bool)) : Lists :=
  (m.getRBACDefaultPermissions secLevel).foldl (grant m)
    (rows.foldl (fun l row => if row.2 then l.grant m row.1 else l.deny m row.1) ⟨∅, ∅⟩)

/-- No permission is granted and denied. -/
def Apart (l : Lists) : Prop := Disjoint l.granted l.denied

/-- No permission is reached from a granted and from a denied one. -/
def Separate (m : AccountMgr) (l : Lists) : Prop :=
  ∀ p, Reaches m l.granted p → ¬ Reaches m l.denied p

end Lists

namespace RBACData

variable {d d' : RBACData}

def lists (d : RBACData) : Lists := ⟨d.grantedPerms, d.deniedPerms⟩

/-- The lists that an operation leaves. -/
def listsAfter (m : AccountMgr) (d : RBACData) : Op → Lists
  | .loadFromDB rows => .load m d.secLevel rows
  | .grant p _ => d.lists.grant m p
  | .deny p _ => d.lists.deny m p
  | .revoke p _ => d.lists.revoke p
  | .setSecurityLevel id rows => .load m id rows

/-- The lists that an operation leaves reach no permission from both sides. -/
def Separates (m : AccountMgr) (d : RBACData) (op : Op) : Prop := (d.listsAfter m op).Separate m

/-- What the class promises of the permissions of an account. -/
structure Sound (m : AccountMgr) (d : RBACData) : Prop where
  expands : ∀ permissions, Yields (expandPermissions m permissions) fun r =>
    ∀ p, p ∈ r ↔ Reaches m permissions p
  disjoint : Disjoint d.grantedPerms d.deniedPerms
  denies : ∀ p, d.hasPermission p = true ↔
    Reaches m d.grantedPerms p ∧ ¬ Reaches m d.deniedPerms p

/-- What holds in every state: the account has all that its granted permissions reach. -/
structure Expanded (m : AccountMgr) (d : RBACData) : Prop where
  apart : d.lists.Apart
  reaches : ∀ p, p ∈ d.globalPerms ↔ Reaches m d.grantedPerms p

theorem Expanded.sound_iff (h : Expanded m d) : Sound m d ↔ d.lists.Separate m := by
  constructor
  · intro hs p hgranted
    exact ((hs.denies p).mp (decide_eq_true ((h.reaches p).mpr hgranted))).2
  · refine fun hsep => ⟨expandPermissions_spec m, h.apart, fun p => ?_⟩
    rw [hasPermission, decide_eq_true_iff, h.reaches]
    exact ⟨fun hp => ⟨hp, hsep p hp⟩, And.left⟩

/-! ## Every operation -/

theorem calculateNewPermissions_spec (h : d.lists.Apart) :
    Yields (d.calculateNewPermissions m) fun d' =>
      Expanded m d' ∧ d'.lists = d.lists ∧ d'.secLevel = d.secLevel :=
  (expandPermissions_spec m d.grantedPerms).bind fun _ hglobal =>
    (expandPermissions_spec m d.deniedPerms).bind fun _ _ => .ok ⟨⟨h, hglobal⟩, rfl, rfl⟩

/-- A list operation of `RBACData` that leaves the lists `l`: in a call from `LoadFromDB` nothing else
changes, and in any other the permissions are up to date afterwards. -/
structure Leaves (m : AccountMgr) (x : Except Fault (RBACCommandResult × RBACData)) (realmId : ℤ)
    (d : RBACData) (l : Lists) : Prop where
  loading : realmId = 0 → Yields x fun r => r.2.lists = l ∧ r.2.secLevel = d.secLevel
  calling : realmId ≠ 0 → Expanded m d → Yields x fun r => Expanded m r.2 ∧ r.2.lists = l

theorem Leaves.unchanged {res : RBACCommandResult} {realmId : ℤ} :
    Leaves m (.ok (res, d)) realmId d d.lists :=
  ⟨fun _ => .ok ⟨rfl, rfl⟩, fun _ h => .ok ⟨h, rfl⟩⟩

theorem calculateUnlessLoading_leaves (d d' : RBACData) (hsec : d'.secLevel = d.secLevel)
    (hapart : d.lists.Apart → d'.lists.Apart) (realmId : ℤ) :
    Leaves m (d'.calculateUnlessLoading m realmId) realmId d d'.lists := by
  refine ⟨fun h => ?_, fun h hinv => ?_⟩
  · rw [calculateUnlessLoading, if_neg (not_not.mpr h)]
    exact .ok ⟨rfl, hsec⟩
  · rw [calculateUnlessLoading, if_pos h]
    exact (calculateNewPermissions_spec (hapart hinv.apart)).bind fun d'' hd'' =>
      .ok ⟨hd''.1, hd''.2.1⟩

/-- A permission that is refused where it is unknown or in the other list, and added where it is not in
the list yet. -/
theorem added_leaves {own other : Finset ℕ} {p : ℕ} {realmId : ℤ} {l : Lists}
    {x : Except Fault (RBACCommandResult × RBACData)} {inOther added : RBACCommandResult}
    (hown : p ∈ own → l = d.lists) (hadd : p ∉ other → Leaves m x realmId d l) :
    Leaves m
      (if (m.getRBACPermission p).isNone then .ok (.idDoesNotExists, d)
      else if p ∈ other then .ok (inOther, d)
      else if p ∈ own then .ok (added, d)
      else x) realmId d
      (if (m.getRBACPermission p).isSome ∧ p ∉ other then l else d.lists) := by
  by_cases hknown : (m.getRBACPermission p).isSome
  · rw [if_neg (by simpa using Option.isSome_iff_ne_none.mp hknown)]
    by_cases hother : p ∈ other
    · rw [if_pos hother, if_neg fun h => h.2 hother]
      exact .unchanged
    · rw [if_neg hother, if_pos (And.intro hknown hother)]
      by_cases hin : p ∈ own
      · rw [if_pos hin, hown hin]
        exact .unchanged
      · rw [if_neg hin]
        exact hadd hother
  · rw [if_pos (by simpa using hknown), if_neg fun h => hknown h.1]
    exact .unchanged

theorem grantPermission_leaves (p : ℕ) (realmId : ℤ) :
    Leaves m (d.grantPermission m p realmId) realmId d (d.lists.grant m p) := by
  refine added_leaves (fun hgranted => ?_) fun hdenied => ?_
  · exact congrArg (Lists.mk · d.deniedPerms) (Finset.insert_eq_of_mem hgranted)
  · exact calculateUnlessLoading_leaves d { d with grantedPerms := insert p d.grantedPerms } rfl
      (fun h => Finset.disjoint_insert_left.mpr ⟨hdenied, h⟩) realmId

theorem denyPermission_leaves (p : ℕ) (realmId : ℤ) :
    Leaves m (d.denyPermission m p realmId) realmId d (d.lists.deny m p) := by
  refine added_leaves (fun hdenied => ?_) fun hgranted => ?_
  · exact congrArg (Lists.mk d.grantedPerms) (Finset.insert_eq_of_mem hdenied)
  · exact calculateUnlessLoading_leaves d { d with deniedPerms := insert p d.deniedPerms } rfl
      (fun h => Finset.disjoint_insert_right.mpr ⟨hgranted, h⟩) realmId

theorem revokePermission_leaves (p : ℕ) (realmId : ℤ) :
    Leaves m (d.revokePermission m p realmId) realmId d (d.lists.revoke p) := by
  have hrevoke : d.lists.revoke p = ⟨d.grantedPerms.erase p, d.deniedPerms.erase p⟩ := rfl
  rw [revokePermission, hrevoke]
  split
  · next h =>
    rw [Finset.erase_eq_of_notMem h.1, Finset.erase_eq_of_notMem h.2]
    exact .unchanged
  · exact calculateUnlessLoading_leaves d
      { d with grantedPerms := d.grantedPerms.erase p, deniedPerms := d.deniedPerms.erase p } rfl
      (fun h => Finset.disjoint_of_subset_left (Finset.erase_subset p _)
        (Finset.disjoint_of_subset_right (Finset.erase_subset p _) h)) realmId

variable {l : Lists}

theorem Leaves.step {x : Except Fault (RBACCommandResult × RBACData)} {realmId : RealmId}
    (h : Leaves m x realmId d l) (hinv : Expanded m d) :
    Yields (Prod.snd <$> x) fun d' => Expanded m d' ∧ d'.lists = l := by
  obtain ⟨r, rfl, hr⟩ := h.calling realmId.2 hinv
  exact .ok hr

theorem apart_grant (p : ℕ) (h : l.Apart) : (l.grant m p).Apart := by
  rw [Lists.grant]
  split
  · next hp => exact Finset.disjoint_insert_left.mpr ⟨hp.2, h⟩
  · exact h

theorem apart_deny (p : ℕ) (h : l.Apart) : (l.deny m p).Apart := by
  rw [Lists.deny]
  split
  · next hp => exact Finset.disjoint_insert_right.mpr ⟨hp.2, h⟩
  · exact h

theorem apart_load (secLevel : UInt8) (rows : List (ℕ × Bool)) :
    (Lists.load m secLevel rows).Apart := by
  refine foldl_keeps (fun l p h => apart_grant p h) _ ?_
  refine foldl_keeps (fun l row h => ?_) _ (Finset.disjoint_empty_left _)
  split
  · exact apart_grant row.1 h
  · exact apart_deny row.1 h

/-- A loop that loads rows makes the lists that the rows make. -/
theorem load_spec {α : Type} {f : RBACData → α → Except Fault RBACData} {g : Lists → α → Lists}
    (hf : ∀ d a, Yields (f d a) fun d' => d'.lists = g d.lists a ∧ d'.secLevel = d.secLevel)
    (rows : List α) (d : RBACData) :
    Yields (rows.foldlM f d) fun d' =>
      d'.lists = rows.foldl g d.lists ∧ d'.secLevel = d.secLevel := by
  induction rows generalizing d with
  | nil => exact .ok ⟨rfl, rfl⟩
  | cons a rows ih =>
    rw [List.foldlM_cons, List.foldl_cons]
    refine (hf d a).bind fun t ht => (ih t).mono fun d' hd' => ?_
    rw [← ht.1, ← ht.2]
    exact hd'

theorem loadRow_spec (d : RBACData) (row : ℕ × Bool) :
    Yields (loadRow m d row) fun d' =>
      d'.lists = (if row.2 then d.lists.grant m row.1 else d.lists.deny m row.1) ∧
        d'.secLevel = d.secLevel := by
  rw [loadRow]
  cases row.2 with
  | true => exact ((grantPermission_leaves row.1 0).loading rfl).bind fun r hr => .ok hr
  | false => exact ((denyPermission_leaves row.1 0).loading rfl).bind fun r hr => .ok hr

theorem loadDefault_spec (d : RBACData) (p : ℕ) :
    Yields (loadDefault m d p) fun d' =>
      d'.lists = d.lists.grant m p ∧ d'.secLevel = d.secLevel :=
  ((grantPermission_leaves p 0).loading rfl).bind fun _ hr => .ok hr

theorem loadFromDB_spec (rows : List (ℕ × Bool)) :
    Yields (d.loadFromDB m rows) fun d' =>
      Expanded m d' ∧ d'.lists = .load m d.secLevel rows := by
  refine (load_spec (g := fun l row => if row.2 then l.grant m row.1 else l.deny m row.1)
    loadRow_spec rows d.clearData).bind fun d₁ h₁ => ?_
  have hsec : d₁.secLevel = d.secLevel := h₁.2
  refine (load_spec loadDefault_spec _ d₁).bind fun d₂ h₂ => ?_
  have hlists : d₂.lists = .load m d.secLevel rows := by rw [h₂.1, h₁.1, hsec]; rfl
  have hapart : d₂.lists.Apart := by
    rw [hlists]
    exact apart_load d.secLevel rows
  exact (calculateNewPermissions_spec hapart).mono fun d' hd' =>
    ⟨hd'.1, hd'.2.1.trans hlists⟩

theorem step_spec (op : Op) (h : Expanded m d) :
    Yields (d.step m op) fun d' => Expanded m d' ∧ d'.lists = d.listsAfter m op := by
  cases op with
  | loadFromDB rows => exact loadFromDB_spec rows
  | grant p realmId => exact (grantPermission_leaves p realmId).step h
  | deny p realmId => exact (denyPermission_leaves p realmId).step h
  | revoke p realmId => exact (revokePermission_leaves p realmId).step h
  | setSecurityLevel id rows => exact loadFromDB_spec rows

theorem expanded_new (secLevel : UInt8) : Expanded m (new secLevel) :=
  ⟨Finset.disjoint_empty_left _,
    fun p => ⟨fun h => absurd h (Finset.notMem_empty p), fun h => absurd h not_reached_empty⟩⟩

/-- **When denied permissions are denied**: after each operation of a run, just if no operation leaves
lists that reach some permission from both sides. -/
theorem sound_iff_separates (m : AccountMgr) (secLevel : UInt8) (ops : List Op) :
    (∀ l, l <+: ops → Yields (run (step m) (new secLevel) l) (Sound m)) ↔
      Admitted (step m) (Separates m) (new secLevel) ops := by
  -- the invariant is `Expanded` together with separate lists
  have keeps : ∀ d op, Expanded m d ∧ d.lists.Separate m → Separates m d op →
      Yields (d.step m op) fun d' => Expanded m d' ∧ d'.lists.Separate m := by
    intro d op h hop
    refine (step_spec op h.1).mono fun d' hd' => ⟨hd'.1, ?_⟩
    rw [hd'.2]
    exact hop
  have breaks : ∀ d op, Expanded m d ∧ d.lists.Separate m → Yields (d.step m op) (Sound m) →
      Separates m d op := by
    intro d op h hsound
    obtain ⟨d', -, hs, hd', hlists⟩ := hsound.and (step_spec op h.1)
    rw [Separates, ← hlists]
    exact hd'.sound_iff.mp hs
  exact always_iff_admitted keeps (fun d h => h.1.sound_iff.mpr h.2) breaks
    ⟨expanded_new secLevel, fun p hp => absurd hp not_reached_empty⟩ ops

/-- Permission 2 is linked to permission 1. -/
def linkedPair : AccountMgr := ⟨(∅ : AList fun _ : ℕ => Finset ℕ).insert 2 ∅ |>.insert 1 {2}, fun _ => []⟩

/-- Permission 1 is granted, permission 2 is denied, and the account has permission 2. -/
theorem denied_permission_stays :
    ¬ (∀ l, l <+: [Op.loadFromDB [(1, true), (2, false)]] →
      Yields (run (step linkedPair) (new 0) l) (Sound linkedPair)) ∧
    (run (step linkedPair) (new 0) [.loadFromDB [(1, true), (2, false)]]).toOption.any
      (fun d => decide (2 ∈ d.deniedPerms) && d.hasPermission 2) = true := by
  refine ⟨fun h => ?_, by decide⟩
  obtain ⟨d, hd, hsound⟩ := h _ (List.prefix_refl _)
  cases hd
  have hreached : Reaches linkedPair {2} 2 := .of_mem (Finset.mem_singleton_self 2) (by decide)
  exact ((hsound.denies 2).mp (by decide)).2 hreached

end RBACData

end Sunstrider.Accounts
