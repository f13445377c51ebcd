import Sunstrider.Cache.CharacterCache
import Sunstrider.Lib.Index
import Sunstrider.Lib.Map
import Sunstrider.Lib.Run

/-!
# The index by name

A rename keeps the index exact, also one to the same name. The other operations keep it on conditions
that the code does not check (`Careful`): an entry that is added again must keep its name, an entry must
be deleted under its own name, and a reload must bring back every name that the index holds, because it
clears the entries and leaves the index. A run with distinct names keeps the index exact just if each of
its operations is careful (`names_exact_iff_careful`).
-/

namespace Sunstrider.Cache.CharacterCache

open Sunstrider.Lib Function

variable {c : CharacterCache}

/-- The allocation and the name of the entry of a guid. -/
def owner (c : CharacterCache) (guid : UInt32) : Option (ℕ × String) :=
  (c.characterCacheStore.lookup guid).map fun node => (node.number, node.entry.name)

/-- The guid and the allocation that the index has for a name. -/
def indexed (c : CharacterCache) (name : String) : Option (UInt32 × ℕ) :=
  (c.getCharacterCacheByName name).map fun p => (p.guid, p.number)

/-- What holds of every cache: entries know their guid, and no allocation is ahead of the counter. -/
structure Sound (c : CharacterCache) : Prop where
  guidLow : ∀ guid node, c.characterCacheStore.lookup guid = some node → node.entry.guidLow = guid
  number : ∀ guid node, c.characterCacheStore.lookup guid = some node → node.number < c.allocated
  pointer : ∀ name p, c.getCharacterCacheByName name = some p → p.number < c.allocated

/-- What the index promises: it maps a name to an entry just if that entry is in the store under its own
guid and has the name, so that a lookup of a name finds the character that has it. -/
structure Exact (c : CharacterCache) : Prop where
  index : ∀ name p, c.getCharacterCacheByName name = some p ↔
    ∃ node, c.characterCacheStore.lookup p.guid = some node ∧ node.number = p.number ∧
      node.entry.guidLow = p.guid ∧ node.entry.name = name
  lookup : ∀ name, Yields (c.getCharacterGuidByName name) fun r => ∀ guid, r = some guid ↔
    ∃ e, c.getCharacterCacheByGuid guid = some e ∧ e.name = name

/-- The existing characters have distinct names. -/
def DistinctNames (c : CharacterCache) : Prop :=
  (c.characterCacheStore.entries.map fun e => e.2.entry.name).Nodup

instance : Decidable c.DistinctNames := inferInstanceAs (Decidable (List.Nodup _))

/-- The condition under which an operation keeps the index exact. -/
def Careful (c : CharacterCache) : Op → Prop
  | .load rows =>
    ∀ name ∈ c.characterCacheByNameStore.keys ++ rows.map CharacterRow.name,
      ∃ guid ∈ rows.map CharacterRow.guid,
        Index.lastKey (rows.map fun r => (r.guid, r.name)) name = some guid ∧
          Index.lastName (rows.map fun r => (r.guid, r.name)) guid = some name
  | .add row => ∀ e ∈ c.getCharacterCacheByGuid row.guid, e.name = row.name
  | .update .. => True
  | .delete guid name =>
    (∀ e ∈ c.getCharacterCacheByGuid guid, e.name = name) ∧
      (c.getCharacterCacheByGuid guid = none → c.getCharacterCacheByName name = none)

instance (op : Op) : Decidable (c.Careful op) :=
  match op with
  | .load _ => inferInstanceAs (Decidable (∀ _ ∈ _, _))
  | .add _ => inferInstanceAs (Decidable (∀ _ ∈ _, _))
  | .update .. => inferInstanceAs (Decidable True)
  | .delete _ _ => inferInstanceAs (Decidable (_ ∧ _))

/-! ## The cache as a store and an index -/

variable {guid : UInt32}

theorem owner_eq_some {k : ℕ} {n : String} :
    c.owner guid = some (k, n) ↔
      ∃ node, c.characterCacheStore.lookup guid = some node ∧ node.number = k ∧
        node.entry.name = n := by
  simp [owner]

variable {name : String}

theorem indexed_eq_some {k : ℕ} :
    c.indexed name = some (guid, k) ↔ c.getCharacterCacheByName name = some ⟨guid, k⟩ := by
  simp only [indexed, Option.map_eq_some_iff, Prod.mk.injEq]
  constructor
  · rintro ⟨p, hp, rfl, rfl⟩
    exact hp
  · exact fun h => ⟨_, h, rfl, rfl⟩

theorem distinctNames_iff : c.DistinctNames ↔ Index.Distinct c.owner := by
  refine (nodup_map_values_iff fun node : Node => node.entry.name).trans ?_
  constructor
  · intro h k k' i i' n hk hk'
    obtain ⟨node, hnode, -, hname⟩ := owner_eq_some.mp hk
    obtain ⟨node', hnode', -, hname'⟩ := owner_eq_some.mp hk'
    exact h k k' node node' hnode hnode' (hname.trans hname'.symm)
  · intro h k k' node node' hnode hnode' hname
    exact h k k' node.number node'.number node.entry.name (owner_eq_some.mpr ⟨node, hnode, rfl, rfl⟩)
      (owner_eq_some.mpr ⟨node', hnode', rfl, hname.symm⟩)

theorem Sound.exact_iff (h : Sound c) : Exact c ↔ Index.Exact c.owner c.indexed := by
  constructor
  · intro hx n k i
    rw [indexed_eq_some, hx.index, owner_eq_some]
    constructor
    · rintro ⟨node, hnode, hnumber, -, hname⟩
      exact ⟨node, hnode, hnumber, hname⟩
    · rintro ⟨node, hnode, hnumber, hname⟩
      exact ⟨node, hnode, hnumber, h.guidLow k node hnode, hname⟩
  · intro hx
    have hindex : ∀ name p, c.getCharacterCacheByName name = some p ↔
        ∃ node, c.characterCacheStore.lookup p.guid = some node ∧ node.number = p.number ∧
          node.entry.guidLow = p.guid ∧ node.entry.name = name := by
      intro name p
      rw [show c.getCharacterCacheByName name = some p ↔ c.indexed name = some (p.guid, p.number)
        from indexed_eq_some.symm, hx, owner_eq_some]
      constructor
      · rintro ⟨node, hnode, hnumber, hname⟩
        exact ⟨node, hnode, hnumber, h.guidLow p.guid node hnode, hname⟩
      · rintro ⟨node, hnode, hnumber, -, hname⟩
        exact ⟨node, hnode, hnumber, hname⟩
    refine ⟨hindex, fun name => ?_⟩
    rw [getCharacterGuidByName]
    cases hp : c.characterCacheByNameStore.lookup name with
    | none =>
      refine .ok fun guid => ⟨fun hnone => (nomatch hnone), ?_⟩
      rintro ⟨e, he, hname⟩
      obtain ⟨node, hnode, rfl⟩ := Option.map_eq_some_iff.mp he
      have hfound := (hindex name ⟨guid, node.number⟩).mpr
        ⟨node, hnode, rfl, h.guidLow guid node hnode, hname⟩
      rw [getCharacterCacheByName, hp] at hfound
      cases hfound
    | some p =>
      obtain ⟨node, hnode, hnumber, hguid, hname⟩ := (hindex name p).mp hp
      have hderef : c.deref p = .ok node.entry := by
        rw [deref, hnode]
        exact if_pos hnumber
      show Yields (c.deref p >>= fun e => .ok (some e.guidLow)) _
      rw [hderef]
      refine .ok fun guid => ?_
      rw [hguid]
      constructor
      · rintro ⟨⟩
        exact ⟨node.entry, by rw [getCharacterCacheByGuid, hnode]; rfl, hname⟩
      · rintro ⟨e, he, hname'⟩
        obtain ⟨node', hnode', rfl⟩ := Option.map_eq_some_iff.mp he
        have hfound := (hindex name ⟨guid, node'.number⟩).mpr
          ⟨node', hnode', rfl, h.guidLow guid node' hnode', hname'⟩
        rw [getCharacterCacheByName, hp] at hfound
        exact congrArg (fun q : Option Pointer => q.map Pointer.guid) hfound

/-! ## What the operations write -/

theorem sound_empty : Sound empty where
  guidLow _ _ h := nomatch h
  number _ _ h := nomatch h
  pointer _ _ h := nomatch h

theorem exact_empty : Exact empty := by
  refine sound_empty.exact_iff.mpr fun n k i => ⟨fun h => ?_, fun h => ?_⟩
  · cases h
  · cases h

/-- The entry that a subscript finds or makes for a row. -/
def numberFor (c : CharacterCache) (guid : UInt32) : ℕ :=
  match c.characterCacheStore.lookup guid with
  | some node => node.number
  | none => c.allocated

/-- What `AddCharacterCacheEntry` does. -/
structure Added (c : CharacterCache) (row : CharacterRow) (c' : CharacterCache) : Prop where
  store : c'.characterCacheStore =
    c.characterCacheStore.insert row.guid ⟨c.numberFor row.guid, row.entry⟩
  names : c'.characterCacheByNameStore =
    c.characterCacheByNameStore.insert row.name ⟨row.guid, c.numberFor row.guid⟩
  mono : c.allocated ≤ c'.allocated
  number : (∀ guid node, c.characterCacheStore.lookup guid = some node → node.number < c.allocated) →
    c.numberFor row.guid < c'.allocated

theorem added (c : CharacterCache) (row : CharacterRow) :
    Added c row (c.addCharacterCacheEntry row) := by
  unfold addCharacterCacheEntry
  cases h : c.characterCacheStore.lookup row.guid with
  | some node =>
    have hnumber : c.numberFor row.guid = node.number := by rw [numberFor, h]
    refine ⟨by rw [hnumber], by rw [hnumber], le_rfl, fun hlt => ?_⟩
    rw [hnumber]
    exact hlt row.guid node h
  | none =>
    have hnumber : c.numberFor row.guid = c.allocated := by rw [numberFor, h]
    refine ⟨by rw [hnumber], by rw [hnumber], Nat.le_succ _, fun _ => ?_⟩
    rw [hnumber]
    exact Nat.lt_succ_self _

theorem owner_insert {c' : CharacterCache} {node : Node}
    (h : c'.characterCacheStore = c.characterCacheStore.insert guid node) :
    c'.owner = update c.owner guid (some (node.number, node.entry.name)) := by
  funext g
  rw [owner, h, lookup_insert_ite]
  by_cases hg : g = guid
  · rw [if_pos hg, hg, update_self]
    rfl
  · rw [if_neg hg, update_of_ne hg]
    rfl

theorem indexed_insert {c' : CharacterCache} {m : AList fun _ : String => Pointer} {p : Pointer}
    (h : c'.characterCacheByNameStore = m.insert name p) :
    c'.indexed = update (fun n => (m.lookup n).map fun p => (p.guid, p.number)) name
      (some (p.guid, p.number)) := by
  funext n
  rw [indexed, getCharacterCacheByName, h, lookup_insert_ite]
  by_cases hn : n = name
  · rw [if_pos hn, hn, update_self]
    rfl
  · rw [if_neg hn, update_of_ne hn]

theorem owner_erase (guid : UInt32) (name : String) :
    (c.deleteCharacterCacheEntry guid name).owner = update c.owner guid none := by
  funext g
  show ((c.characterCacheStore.erase guid).lookup g).map _ = _
  rw [lookup_erase_ite]
  by_cases hg : g = guid
  · rw [if_pos hg, hg, update_self]
    rfl
  · rw [if_neg hg, update_of_ne hg]
    rfl

theorem indexed_erase (m : AList fun _ : String => Pointer) (name : String) :
    (fun n => ((m.erase name).lookup n).map fun p => (p.guid, p.number)) =
      update (fun n => (m.lookup n).map fun p => (p.guid, p.number)) name none := by
  funext n
  rw [lookup_erase_ite]
  by_cases hn : n = name
  · rw [if_pos hn, hn, update_self]
    rfl
  · rw [if_neg hn, update_of_ne hn]

theorem Sound.added {row : CharacterRow} (h : Sound c) : Sound (c.addCharacterCacheEntry row) := by
  have ha := CharacterCache.added c row
  have hnew := ha.number h.number
  refine ⟨fun guid node hnode => ?_, fun guid node hnode => ?_, fun name p hp => ?_⟩
  · rw [ha.store, lookup_insert_ite] at hnode
    split at hnode
    · next hguid =>
      cases hnode
      exact hguid.symm
    · exact h.guidLow guid node hnode
  · rw [ha.store, lookup_insert_ite] at hnode
    split at hnode
    · cases hnode
      exact hnew
    · exact Nat.lt_of_lt_of_le (h.number guid node hnode) ha.mono
  · rw [getCharacterCacheByName, ha.names, lookup_insert_ite] at hp
    split at hp
    · cases hp
      exact hnew
    · exact Nat.lt_of_lt_of_le (h.pointer name p hp) ha.mono

/-- What `UpdateCharacterData` does to an entry: the guid stays, and the mask says whether the name is
written. -/
structure Updated (c : CharacterCache) (guid : UInt32) (mask : UInt8) (name : String) (node : Node)
    (e : CharacterCacheEntry) (c' : CharacterCache) : Prop where
  guidLow : e.guidLow = node.entry.guidLow
  store : c'.characterCacheStore = c.characterCacheStore.insert guid ⟨node.number, e⟩
  renamed : mask &&& playerUpdateDataName ≠ 0 → e.name = name ∧
    c'.characterCacheByNameStore =
      (c.characterCacheByNameStore.erase node.entry.name).insert name ⟨guid, node.number⟩
  kept : ¬ mask &&& playerUpdateDataName ≠ 0 → e.name = node.entry.name ∧
    c'.characterCacheByNameStore = c.characterCacheByNameStore
  allocated : c'.allocated = c.allocated

theorem updated {node : Node} (h : c.characterCacheStore.lookup guid = some node) (mask : UInt8)
    (name : String) (gender race playerClass : UInt8) :
    ∃ e, Updated c guid mask name node e
      (c.updateCharacterData guid mask name gender race playerClass) := by
  -- the other fields of the mask touch neither the guid nor the name
  have hother : ∀ (b : Prop) [Decidable b] (e f : CharacterCacheEntry), f.guidLow = e.guidLow →
      f.name = e.name → (if b then f else e).guidLow = e.guidLow ∧ (if b then f else e).name = e.name := by
    intro b _ e f hguid hname
    split
    · exact ⟨hguid, hname⟩
    · exact ⟨rfl, rfl⟩
  have hrace := hother (mask &&& playerUpdateDataRace ≠ 0) node.entry { node.entry with race := race }
    rfl rfl
  generalize he₁ : (if mask &&& playerUpdateDataRace ≠ 0 then { node.entry with race := race }
    else node.entry) = e₁ at hrace
  have hclass := hother (mask &&& playerUpdateDataClass ≠ 0) e₁ { e₁ with playerClass := playerClass }
    rfl rfl
  generalize he₂ : (if mask &&& playerUpdateDataClass ≠ 0 then { e₁ with playerClass := playerClass }
    else e₁) = e₂ at hclass
  have hgender := hother (mask &&& playerUpdateDataGender ≠ 0) e₂ { e₂ with gender := gender } rfl rfl
  generalize he₃ : (if mask &&& playerUpdateDataGender ≠ 0 then { e₂ with gender := gender }
    else e₂) = e₃ at hgender
  have hguid : e₃.guidLow = node.entry.guidLow := (hgender.1.trans hclass.1).trans hrace.1
  have hname : e₃.name = node.entry.name := (hgender.2.trans hclass.2).trans hrace.2
  simp only [updateCharacterData, h, he₁, he₂, he₃]
  by_cases hmask : mask &&& playerUpdateDataName ≠ 0
  · rw [if_pos hmask]
    refine ⟨{ e₃ with name := name }, hguid, rfl, fun _ => ⟨rfl, ?_⟩, fun hno => absurd hmask hno, rfl⟩
    rw [hname]
  · rw [if_neg hmask]
    exact ⟨e₃, hguid, rfl, fun hyes => absurd hyes hmask, fun _ => ⟨hname, rfl⟩, rfl⟩

theorem Sound.updated {mask : UInt8} {gender race playerClass : UInt8} (h : Sound c) :
    Sound (c.updateCharacterData guid mask name gender race playerClass) := by
  cases hnode : c.characterCacheStore.lookup guid with
  | none =>
    rw [updateCharacterData, hnode]
    exact h
  | some node =>
    obtain ⟨e, hu⟩ := CharacterCache.updated hnode mask name gender race playerClass
    have hguid : e.guidLow = guid := hu.guidLow.trans (h.guidLow guid node hnode)
    refine ⟨fun g n hn => ?_, fun g n hn => ?_, fun m p hp => ?_⟩
    · rw [hu.store, lookup_insert_ite] at hn
      split at hn
      · next hg =>
        cases hn
        exact hguid.trans hg.symm
      · exact h.guidLow g n hn
    · rw [hu.store, lookup_insert_ite] at hn
      rw [hu.allocated]
      split at hn
      · cases hn
        exact h.number guid node hnode
      · exact h.number g n hn
    · rw [hu.allocated]
      by_cases hmask : mask &&& playerUpdateDataName ≠ 0
      · rw [getCharacterCacheByName, (hu.renamed hmask).2, lookup_insert_ite] at hp
        split at hp
        · cases hp
          exact h.number guid node hnode
        · rw [lookup_erase_ite] at hp
          split at hp
          · cases hp
          · exact h.pointer m p hp
      · rw [getCharacterCacheByName, (hu.kept hmask).2] at hp
        exact h.pointer m p hp

theorem Sound.deleted (h : Sound c) : Sound (c.deleteCharacterCacheEntry guid name) := by
  refine ⟨fun g n hn => ?_, fun g n hn => ?_, fun m p hp => ?_⟩
  · have hn : (c.characterCacheStore.erase guid).lookup g = some n := hn
    rw [lookup_erase_ite] at hn
    split at hn
    · cases hn
    · exact h.guidLow g n hn
  · have hn : (c.characterCacheStore.erase guid).lookup g = some n := hn
    rw [lookup_erase_ite] at hn
    split at hn
    · cases hn
    · exact h.number g n hn
  · have hp : (c.characterCacheByNameStore.erase name).lookup m = some p := hp
    rw [lookup_erase_ite] at hp
    split at hp
    · cases hp
    · exact h.pointer m p hp

/-! ## When the operations keep the index exact -/

theorem exact_added_iff {row : CharacterRow} (h : Sound c) (hx : Exact c)
    (hd : (c.addCharacterCacheEntry row).DistinctNames) :
    Exact (c.addCharacterCacheEntry row) ↔ c.Careful (.add row) := by
  have ha := added c row
  have howner := owner_insert ha.store
  have hindexed := indexed_insert ha.names
  rw [distinctNames_iff, howner] at hd
  rw [h.added.exact_iff, howner, hindexed]
  refine ((h.exact_iff.mp hx).put_iff hd).trans ?_
  simp only [owner, Careful, getCharacterCacheByGuid]
  cases c.characterCacheStore.lookup row.guid with
  | none => simp
  | some node => simp [CharacterRow.entry]

theorem exact_updated {mask : UInt8} {gender race playerClass : UInt8} (h : Sound c) (hx : Exact c)
    (hd : (c.updateCharacterData guid mask name gender race playerClass).DistinctNames) :
    Exact (c.updateCharacterData guid mask name gender race playerClass) := by
  cases hnode : c.characterCacheStore.lookup guid with
  | none =>
    rw [updateCharacterData, hnode]
    exact hx
  | some node =>
    obtain ⟨e, hu⟩ := updated hnode mask name gender race playerClass
    have howner := owner_insert hu.store
    have hold : c.owner guid = some (node.number, node.entry.name) :=
      owner_eq_some.mpr ⟨node, hnode, rfl, rfl⟩
    rw [distinctNames_iff, howner] at hd
    rw [h.updated.exact_iff, howner]
    by_cases hmask : mask &&& playerUpdateDataName ≠ 0
    · obtain ⟨hname, hnames⟩ := hu.renamed hmask
      rw [indexed_insert hnames, indexed_erase]
      rw [hname] at hd ⊢
      exact (h.exact_iff.mp hx).rename hold hd
    · obtain ⟨hname, hnames⟩ := hu.kept hmask
      rw [hname, ← hold, update_eq_self]
      intro n k i
      rw [indexed, getCharacterCacheByName, hnames]
      exact h.exact_iff.mp hx n k i

theorem exact_deleted_iff (h : Sound c) (hx : Exact c) :
    Exact (c.deleteCharacterCacheEntry guid name) ↔ c.Careful (.delete guid name) := by
  have hindexed : (c.deleteCharacterCacheEntry guid name).indexed = update c.indexed name none :=
    indexed_erase c.characterCacheByNameStore name
  rw [h.deleted.exact_iff, owner_erase, hindexed]
  refine ((h.exact_iff.mp hx).erase_iff guid name).trans ?_
  simp only [owner, Careful, getCharacterCacheByGuid, indexed]
  cases c.characterCacheStore.lookup guid with
  | none => simp
  | some node => simp

/-! ## Loading -/

/-- The guids and names of rows. -/
abbrev pairs (rows : List CharacterRow) : List (UInt32 × String) := rows.map fun r => (r.guid, r.name)

/-- What a loop of `AddCharacterCacheEntry` makes of a cache, where `handle` tells the allocation of each
guid. -/
structure Filled (c : CharacterCache) (rows : List CharacterRow) (handle : UInt32 → ℕ)
    (c' : CharacterCache) : Prop where
  sound : Sound c'
  kept : ∀ guid node, c.characterCacheStore.lookup guid = some node → handle guid = node.number
  fresh : ∀ guid, c.characterCacheStore.lookup guid = none → c.allocated ≤ handle guid
  owner : ∀ guid, c'.owner guid =
    ((Index.lastName (pairs rows) guid).map fun n => (handle guid, n)).or (c.owner guid)
  indexed : ∀ name, c'.indexed name =
    ((Index.lastKey (pairs rows) name).map fun k => (k, handle k)).or (c.indexed name)

theorem filled (h : Sound c) (rows : List CharacterRow) :
    ∃ handle, Filled c rows handle (rows.foldl addCharacterCacheEntry c) := by
  induction rows generalizing c with
  | nil =>
    refine ⟨c.numberFor, h, fun guid node hnode => by rw [numberFor, hnode], fun guid hnone => ?_,
      fun guid => rfl, fun name => rfl⟩
    rw [numberFor, hnone]
  | cons row rows ih =>
    have ha := added c row
    have hpairs : pairs (row :: rows) = (row.guid, row.name) :: pairs rows := rfl
    obtain ⟨handle, hf⟩ := ih h.added
    have hrow : handle row.guid = c.numberFor row.guid := by
      refine hf.kept row.guid ⟨c.numberFor row.guid, row.entry⟩ ?_
      rw [ha.store, AList.lookup_insert]
    have hother : ∀ guid ≠ row.guid, (c.addCharacterCacheEntry row).characterCacheStore.lookup guid =
        c.characterCacheStore.lookup guid := by
      intro guid hne
      rw [ha.store, AList.lookup_insert_ne hne]
    refine ⟨handle, hf.sound, fun guid node hnode => ?_, fun guid hnone => ?_, fun guid => ?_,
      fun name => ?_⟩
    · by_cases hg : guid = row.guid
      · rw [hg] at hnode ⊢
        rw [hrow, numberFor, hnode]
      · exact hf.kept guid node ((hother guid hg).trans hnode)
    · by_cases hg : guid = row.guid
      · rw [hg] at hnone ⊢
        rw [hrow, numberFor, hnone]
      · exact Nat.le_trans ha.mono (hf.fresh guid ((hother guid hg).trans hnone))
    · rw [List.foldl_cons, hf.owner, owner_insert ha.store, hpairs, Index.lastName_cons]
      cases Index.lastName (pairs rows) guid with
      | some n => rfl
      | none =>
        by_cases hg : guid = row.guid
        · subst hg
          simp [hrow, CharacterRow.entry]
        · simp [hg, Ne.symm hg]
    · rw [List.foldl_cons, hf.indexed, indexed_insert ha.names, hpairs, Index.lastKey_cons]
      cases Index.lastKey (pairs rows) name with
      | some k => rfl
      | none =>
        by_cases hn : name = row.name
        · subst hn
          simp [hrow]
        · simp [hn, Ne.symm hn, CharacterCache.indexed, getCharacterCacheByName]

theorem Sound.cleared (h : Sound c) : Sound { c with characterCacheStore := ∅ } where
  guidLow _ _ hnode := nomatch hnode
  number _ _ hnode := nomatch hnode
  pointer := h.pointer

theorem Sound.loaded {rows : List CharacterRow} (h : Sound c) :
    Sound (c.loadCharacterCacheStorage rows) := by
  obtain ⟨handle, hf⟩ := filled h.cleared rows
  exact hf.sound

theorem exact_loaded_iff {rows : List CharacterRow} (h : Sound c)
    (hd : (c.loadCharacterCacheStorage rows).DistinctNames) :
    Exact (c.loadCharacterCacheStorage rows) ↔ c.Careful (.load rows) := by
  obtain ⟨handle, hf⟩ := filled h.cleared rows
  have howner : (c.loadCharacterCacheStorage rows).owner = Index.loadedStore handle (pairs rows) := by
    funext guid
    exact (hf.owner guid).trans (Option.or_none)
  have hindexed : (c.loadCharacterCacheStorage rows).indexed =
      Index.loadedIndex handle (pairs rows) c.indexed := by
    funext name
    refine (hf.indexed name).trans ?_
    rw [Index.loadedIndex]
    cases Index.lastKey (pairs rows) name with
    | some k => rfl
    | none => rfl
  have hstale : ∀ n k i, c.indexed n = some (k, i) → i ≠ handle k := by
    intro n k i hold
    have hlt : i < c.allocated := h.pointer n ⟨k, i⟩ (indexed_eq_some.mp hold)
    exact Nat.ne_of_lt (Nat.lt_of_lt_of_le hlt (hf.fresh k rfl))
  rw [distinctNames_iff, howner] at hd
  rw [h.loaded.exact_iff, howner, hindexed, Index.exact_loaded_iff hstale hd]
  -- the names that the index holds are its keys
  have hkeys : ∀ n, ((c.indexed n).isSome ∨ ∃ r ∈ pairs rows, r.2 = n) ↔
      n ∈ c.characterCacheByNameStore.keys ++ rows.map CharacterRow.name := by
    intro n
    rw [List.mem_append, mem_keys_iff_lookup, ← Option.isSome_iff_exists, indexed, Option.isSome_map]
    simp [pairs, getCharacterCacheByName]
  constructor
  · intro hcovers n hn
    obtain ⟨guid, hkey, hname⟩ := hcovers n ((hkeys n).mpr hn)
    obtain ⟨r, hr, hguid⟩ := Option.map_eq_some_iff.mp hkey
    obtain ⟨row, hrow, rfl⟩ := List.mem_map.mp (List.mem_reverse.mp (List.mem_of_find?_eq_some hr))
    exact ⟨guid, List.mem_map.mpr ⟨row, hrow, hguid⟩, hkey, hname⟩
  · intro hcovers n hn
    obtain ⟨guid, -, hkey, hname⟩ := hcovers n ((hkeys n).mp hn)
    exact ⟨guid, hkey, hname⟩

/-! ## Every run -/

theorem Sound.step {op : Op} (h : Sound c) : Sound (c.step op) := by
  cases op with
  | load rows => exact h.loaded
  | add row => exact h.added
  | update guid mask name gender race playerClass => exact h.updated
  | delete guid name => exact h.deleted

theorem exact_step_iff {op : Op} (h : Sound c) (hx : Exact c) (hd : (c.step op).DistinctNames) :
    Exact (c.step op) ↔ c.Careful op := by
  cases op with
  | load rows => exact exact_loaded_iff h hd
  | add row => exact exact_added_iff h hx hd
  | update guid mask name gender race playerClass =>
    exact ⟨fun _ => trivial, fun _ => exact_updated h hx hd⟩
  | delete guid name => exact exact_deleted_iff h hx

/-- **When the index by name is exact.** In a run in which the existing characters have distinct names at
every moment, the index is exact all along just if every operation is careful. -/
theorem names_exact_iff_careful (ops : List Op)
    (hdistinct : AllAlong step (fun c op => (c.step op).DistinctNames) empty ops) :
    (∀ l, l <+: ops → Exact (l.foldl step empty)) ↔ AllAlong step Careful empty ops := by
  constructor
  · intro h
    have hexact := (allAlong_of_always h).and hdistinct
    refine AllAlong.mono_of_keeps (I := fun c => Sound c ∧ Exact c)
      (fun c op hc hop => ⟨hc.1.step, hop.1⟩) (fun c op hc hop => ?_)
      ⟨sound_empty, exact_empty⟩ hexact
    exact (exact_step_iff hc.1 hc.2 hop.2).mp hop.1
  · rintro h l ⟨rest, rfl⟩
    have hall := (allAlong_append.mp (h.and hdistinct)).1
    have hkept : Sound (l.foldl step empty) ∧ Exact (l.foldl step empty) :=
      foldl_keeps_of_allAlong (I := fun c => Sound c ∧ Exact c)
        (fun c op hc hop => ⟨hc.1.step, (exact_step_iff hc.1 hc.2 hop.2).mpr hop.1⟩)
        ⟨sound_empty, exact_empty⟩ hall
    exact hkept.2

def rowNamed (guid : UInt32) (name : String) : CharacterRow := ⟨guid, 1, name, 0, 1, 1, 70, 0⟩

/-- A start of the server, a new character, a rename to the same and to another name, and a deletion. -/
def carefulOps : List Op :=
  [.load [rowNamed 1 "Arthas"], .add (rowNamed 2 "Jaina"),
    .update 1 playerUpdateDataName "Arthas" 0 0 0, .update 1 playerUpdateDataName "Menethil" 0 0 0,
    .delete 2 "Jaina"]

theorem names_exact_iff_careful_renames :
    AllAlong step Careful empty carefulOps ∧
      ∀ l, l <+: carefulOps → Exact (l.foldl step empty) := by
  have hcareful : AllAlong step Careful empty carefulOps := by decide
  exact ⟨hcareful, (names_exact_iff_careful carefulOps (by decide)).mpr hcareful⟩

/-- A character that was renamed in the database between two loads: the old name stays in the index, and
its lookup reads the destroyed entry. -/
theorem reload_leaves_dangling :
    AllAlong step (fun c op => (c.step op).DistinctNames) empty
        [.load [rowNamed 1 "Arthas"], .load [rowNamed 1 "Menethil"]] ∧
      ((empty.step (.load [rowNamed 1 "Arthas"])).step
        (.load [rowNamed 1 "Menethil"])).getCharacterGuidByName "Arthas" = .error .freed ∧
      ¬ Exact ((empty.step (.load [rowNamed 1 "Arthas"])).step (.load [rowNamed 1 "Menethil"])) := by
  have hfreed : ((empty.step (.load [rowNamed 1 "Arthas"])).step
      (.load [rowNamed 1 "Menethil"])).getCharacterGuidByName "Arthas" = .error .freed := by decide
  refine ⟨by decide, hfreed, fun hx => ?_⟩
  obtain ⟨r, hr, -⟩ := hx.lookup "Arthas"
  cases hr

end Sunstrider.Cache.CharacterCache
