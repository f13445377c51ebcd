import Sunstrider.Laws.Instances.SpawnGroups

/-!
# The doors of an instance

The sets of the bosses list the doors of the map (`Listed`), so a change of a boss that is not made in
silence comes to each door that depends on it. A door that depends on several bosses is looked at as a
whole then (`Settled.call`).
-/

namespace Sunstrider.InstanceScripts

open Lib

/-- What a type of door asks of the state of a boss. -/
def DoorType.Holds (state : EncounterState) : DoorType → Prop
  | .room => state ≠ .inProgress
  | .passage => state = .done
  | .spawnHole => state = .inProgress

variable {s' : InstanceScript} {l : List Call}

namespace InstanceScript

variable {u : Setup} {s : InstanceScript}

/-- All conditions of an entry hold. -/
def ShouldOpen (u : Setup) (s : InstanceScript) (entry : ℕ) : Prop :=
  ∀ info ∈ u.doors entry, info.type.Holds (s.stateOf info.boss)

/-- Each registered door of the map is open just if all its conditions hold. -/
def DoorsRight (u : Setup) (s : InstanceScript) : Prop :=
  ∀ guid go, s.gameObjects.lookup guid = some go → u.doors go.entry ≠ [] →
    (go.goState = .active ↔ s.ShouldOpen u go.entry)

/-- The sets of the bosses have the doors of the map that are bound to them. -/
def Listed (u : Setup) (s : InstanceScript) : Prop :=
  ∀ guid id type, guid ∈ (s.bosses id).door type ↔
    ∃ go, s.gameObjects.lookup guid = some go ∧ ⟨id, type⟩ ∈ u.doors go.entry

theorem all_openFor_iff (u : Setup) (s : InstanceScript) (entry : ℕ) :
    (u.doors entry).all s.openFor = true ↔ s.ShouldOpen u entry := by
  rw [List.all_eq_true]
  refine forall₂_congr fun info _ => ?_
  rw [openFor, stateOf]
  cases info.type <;> simp [DoorType.Holds]

theorem shouldOpen_congr (h : s'.stateOf = s.stateOf) (entry : ℕ) :
    s'.ShouldOpen u entry ↔ s.ShouldOpen u entry := by
  rw [ShouldOpen, h, ShouldOpen]

/-! ## `UpdateDoorState` -/

/-- A gameobject after `UpdateDoorState`. -/
def settle (u : Setup) (s : InstanceScript) (go : GameObject) : GameObject :=
  if u.doors go.entry = [] then go
  else { go with goState := if (u.doors go.entry).all s.openFor then .active else .ready }

theorem entry_settle (go : GameObject) : (settle u s go).entry = go.entry := by
  rw [settle]
  split_ifs <;> rfl

theorem goState_settle {go : GameObject} (h : u.doors go.entry ≠ []) :
    (settle u s go).goState = .active ↔ s.ShouldOpen u go.entry := by
  rw [settle, if_neg h, ← all_openFor_iff]
  split_ifs with hopen <;> simp [hopen]

theorem settle_settle (go : GameObject) : settle u s (settle u s go) = settle u s go := by
  by_cases h : u.doors go.entry = []
  · simp [settle, h]
  · simp [settle, h]

theorem settle_congr (h : s'.bosses = s.bosses) : settle u s' = settle u s := by
  funext go
  have hopen : s'.openFor = s.openFor := by
    funext info
    rw [openFor, openFor, h]
  rw [settle, settle, hopen]

theorem lookup_updateDoorState (s : InstanceScript) (guid g : ℕ) :
    (s.updateDoorState u guid).gameObjects.lookup g =
      if g = guid then (s.gameObjects.lookup g).map (settle u s) else s.gameObjects.lookup g := by
  rw [updateDoorState]
  split
  next hnone =>
    split_ifs with hg
    · rw [hg, hnone]
      rfl
    · rfl
  next door hdoor =>
    split
    next hnil =>
      split_ifs with hg
      · rw [hg, hdoor, Option.map_some, settle, if_pos hnil]
      · rfl
    next hne =>
      dsimp only
      rw [lookup_insert_ite]
      by_cases hg : g = guid
      · rw [if_pos hg, if_pos hg, hg, hdoor, Option.map_some, settle, if_neg hne]
      · rw [if_neg hg, if_neg hg]

theorem lookup_updateDoors (l : List ℕ) (s : InstanceScript) (g : ℕ) :
    (l.foldl (fun s guid => s.updateDoorState u guid) s).gameObjects.lookup g =
      if g ∈ l then (s.gameObjects.lookup g).map (settle u s) else s.gameObjects.lookup g := by
  induction l generalizing s with
  | nil => rfl
  | cons guid l ih =>
    rw [List.foldl_cons, ih, lookup_updateDoorState, settle_congr (bosses_updateDoorState guid)]
    by_cases hg : g = guid
    · subst hg
      rw [if_pos rfl, if_pos List.mem_cons_self]
      split_ifs
      · rw [Option.map_map]
        congr 1
        exact funext settle_settle
      · rfl
    · simp [hg]

/-! ## The sets of the bosses -/

/-- What comes of the loop of `AddDoor`, where its body changes who is in a set in a way that does nothing
when it is done once more. -/
theorem mem_changeDoors {f : List ℕ → List ℕ} {Q : ℕ → Prop → Prop}
    (hf : ∀ l x, x ∈ f l ↔ Q x (x ∈ l)) (hQ : ∀ x p, Q x (Q x p) ↔ Q x p) (s : InstanceScript)
    (entry id : ℕ) (type : DoorType) (x : ℕ) :
    x ∈ ((s.changeDoors u f entry).bosses id).door type ↔
      if ⟨id, type⟩ ∈ u.doors entry then Q x (x ∈ (s.bosses id).door type)
      else x ∈ (s.bosses id).door type := by
  rw [changeDoors]
  induction u.doors entry generalizing s with
  | nil => simp
  | cons info l ih =>
    rw [List.foldl_cons, ih]
    dsimp only
    by_cases hinfo : info = ⟨id, type⟩
    · subst hinfo
      rw [Function.update_self, if_pos List.mem_cons_self]
      dsimp only
      rw [Function.update_self]
      split_ifs
      · rw [hf, hQ]
      · rw [hf]
    · have hsame : ((Function.update s.bosses info.boss
          { s.bosses info.boss with
            door := Function.update (s.bosses info.boss).door info.type
              (f ((s.bosses info.boss).door info.type)) }) id).door type = (s.bosses id).door type := by
        by_cases hid : id = info.boss
        · subst hid
          rw [Function.update_self]
          refine Function.update_of_ne ?_ _ _
          rintro rfl
          exact hinfo rfl
        · rw [Function.update_of_ne hid]
      rw [hsame]
      simp [Ne.symm hinfo]

/-! ## Which doors a boss has -/

theorem mem_doorsOf {guid id : ℕ} : guid ∈ s.doorsOf id ↔ ∃ type, guid ∈ (s.bosses id).door type := by
  rw [doorsOf, List.mem_flatMap]
  refine ⟨fun ⟨type, _, h⟩ => ⟨type, h⟩, fun ⟨type, h⟩ => ⟨type, ?_, h⟩⟩
  cases type <;> simp [doorTypes]

theorem Listed.boss_ne (h : s.Listed u) {guid id : ℕ} {go : GameObject}
    (hgo : s.gameObjects.lookup guid = some go) (hguid : guid ∉ s.doorsOf id) :
    ∀ info ∈ u.doors go.entry, info.boss ≠ id := by
  rintro ⟨boss, type⟩ hinfo rfl
  exact hguid (mem_doorsOf.mpr ⟨type, (h guid boss type).mpr ⟨go, hgo, hinfo⟩⟩)

theorem Listed.congr (h : s.Listed u) (hdoor : ∀ id, (s'.bosses id).door = (s.bosses id).door)
    (hentry : ∀ guid, (s'.gameObjects.lookup guid).map GameObject.entry =
      (s.gameObjects.lookup guid).map GameObject.entry) : s'.Listed u := by
  have hsome : ∀ (o : Option GameObject) (p : ℕ → Prop),
      (∃ go, o = some go ∧ p go.entry) ↔ ∃ entry, o.map GameObject.entry = some entry ∧ p entry := by
    intro o p
    cases o <;> simp
  intro guid id type
  rw [hdoor, h guid id type, hsome _ fun entry => ⟨id, type⟩ ∈ u.doors entry,
    hsome _ fun entry => ⟨id, type⟩ ∈ u.doors entry, hentry]

/-! ## One call of `SetBossState` -/

/-- A call that comes to a state for a boss that is to be decided changes nothing that a door of the map
asks for. -/
def CarefulDoors (u : Setup) (s : InstanceScript) (c : Call) : Prop :=
  c.id < u.bossNumber → s.stateOf c.id = .toBeDecided →
    ∀ guid go, s.gameObjects.lookup guid = some go →
      ((s.withState c.id c.state).ShouldOpen u go.entry ↔ s.ShouldOpen u go.entry)

/-- It changes nothing that a spawn group of the table asks for. -/
def CarefulGroups (u : Setup) (s : InstanceScript) (c : Call) : Prop :=
  c.id < u.bossNumber → s.stateOf c.id = .toBeDecided →
    ∀ info ∈ u.spawnGroups,
      ((s.withState c.id c.state).Wanted u info.spawnGroupId ↔ s.Wanted u info.spawnGroupId)

theorem call_outcomes (u : Setup) (s : InstanceScript) (c : Call) :
    call u s c = s ∨
      (c.id < u.bossNumber ∧ s.stateOf c.id = .toBeDecided ∧ call u s c = s.withState c.id c.state) ∨
      ∃ s' : InstanceScript, s'.bosses = (s.withState c.id c.state).bosses ∧ s'.gameObjects = s.gameObjects ∧
        call u s c =
          ((s'.doorsOf c.id).foldl (fun s guid => s.updateDoorState u guid) s').updateSpawnGroups u := by
  rw [call, setBossState]
  split_ifs with hid htbd hsame hdone halive
  · exact .inr (.inl ⟨hid, htbd, rfl⟩)
  · exact .inl rfl
  · exact .inl rfl
  · exact .inl rfl
  · refine .inr (.inr ⟨(s.withState c.id c.state).saveToDB u, bosses_saveToDB, ?_, rfl⟩)
    rw [saveToDB]
    split <;> rfl
  · exact .inl rfl

@[simp] theorem gameObjects_updateSpawnGroups :
    (s.updateSpawnGroups u).gameObjects = s.gameObjects := by
  obtain ⟨toggled, h⟩ := updateSpawnGroups_frame (u := u) s
  rw [h]

/-- The doors of the map are listed with their bosses, and each is as it should be. -/
structure Settled (u : Setup) (s : InstanceScript) : Prop where
  listed : s.Listed u
  doorsRight : s.DoorsRight u

theorem door_withState (s : InstanceScript) (id : ℕ) (state : EncounterState) (i : ℕ) :
    ((s.withState id state).bosses i).door = (s.bosses i).door := by
  rw [withState]
  dsimp only
  by_cases h : i = id
  · subst h
    rw [Function.update_self]
  · rw [Function.update_of_ne h]

theorem Settled.updateSpawnGroups (h : s.Settled u) : (s.updateSpawnGroups u).Settled u := by
  refine ⟨h.listed.congr (fun id => by rw [bosses_updateSpawnGroups]) fun guid => ?_,
    fun guid go hgo hne => ?_⟩
  · rw [gameObjects_updateSpawnGroups]
  · rw [gameObjects_updateSpawnGroups] at hgo
    rw [shouldOpen_congr (stateOf_updateSpawnGroups s)]
    exact h.doorsRight guid go hgo hne

variable {c : Call}

/-- **One call keeps the doors right**: the doors of its boss are looked at, and no other one depends on
it. -/
theorem Settled.call (h : s.Settled u) (hc : s.CarefulDoors u c) : (call u s c).Settled u := by
  obtain heq | ⟨hid, htbd, heq⟩ | ⟨s', hbosses, hobjects, heq⟩ := call_outcomes u s c
  · rw [heq]
    exact h
  · rw [heq]
    refine ⟨h.listed.congr (door_withState s c.id c.state) fun _ => rfl, fun guid go hgo hne => ?_⟩
    rw [hc hid htbd guid go hgo]
    exact h.doorsRight guid go hgo hne
  · have hlisted : s'.Listed u := by
      refine h.listed.congr (fun id => ?_) fun guid => ?_
      · rw [hbosses, door_withState]
      · rw [hobjects]
    have hstate : s'.stateOf = Function.update s.stateOf c.id c.state := by
      rw [← stateOf_withState]
      funext i
      rw [stateOf, hbosses, stateOf]
    have hframe := (updateDoors_frame (u := u) (s'.doorsOf c.id) s').1
    rw [heq]
    refine Settled.updateSpawnGroups ⟨hlisted.congr (fun id => ?_) fun guid => ?_,
      fun guid go hgo hne => ?_⟩
    · rw [hframe]
    · rw [lookup_updateDoors]
      split_ifs
      · rw [Option.map_map]
        congr 1
        exact funext entry_settle
      · rfl
    · rw [shouldOpen_congr (s := s') (by funext i; rw [stateOf, hframe, stateOf])]
      rw [lookup_updateDoors] at hgo
      split_ifs at hgo with hguid
      · obtain ⟨go, -, rfl⟩ := Option.map_eq_some_iff.mp hgo
        rw [entry_settle] at hne ⊢
        exact goState_settle hne
      · -- The door is not of the boss, so what it asks for is as before.
        have hother := hlisted.boss_ne hgo hguid
        rw [hobjects] at hgo
        rw [h.doorsRight guid go hgo hne, ShouldOpen, ShouldOpen]
        refine forall₂_congr fun info hinfo => ?_
        rw [hstate, Function.update_of_ne (hother info hinfo)]

/-- A call in silence that changes nothing for the groups leaves them right, and any other one makes them
right. -/
theorem GroupsRight.call (hmap : u.GroupsOfMap) (h : s.GroupsRight u) (hc : s.CarefulGroups u c) :
    (call u s c).GroupsRight u := by
  obtain heq | ⟨hid, htbd, heq⟩ | ⟨s', -, -, heq⟩ := call_outcomes u s c
  · rw [heq]
    exact h
  · rw [heq]
    intro info hinfo
    rw [hc hid htbd info hinfo]
    exact h info hinfo
  · rw [heq]
    exact groupsRight_updateSpawnGroups hmap _

/-! ## Gameobjects that come and go -/

theorem toggled_updateDoorState (s : InstanceScript) (guid : ℕ) :
    (s.updateDoorState u guid).toggledSpawnGroupIds = s.toggledSpawnGroupIds := by
  rw [updateDoorState]
  split
  · rfl
  · split <;> rfl

theorem toggled_onGameObjectCreate (s : InstanceScript) (guid : ℕ) (go : GameObject) :
    (s.onGameObjectCreate u guid go).toggledSpawnGroupIds = s.toggledSpawnGroupIds := by
  rw [InstanceScript.onGameObjectCreate]
  split_ifs
  · rfl
  · exact (toggled_updateDoorState _ guid).trans (changeDoors_frame _ go.entry _).2.2.2

theorem toggled_onGameObjectRemove (s : InstanceScript) (guid : ℕ) :
    (s.onGameObjectRemove u guid).toggledSpawnGroupIds = s.toggledSpawnGroupIds := by
  rw [InstanceScript.onGameObjectRemove]
  split
  · rfl
  · next go _ => exact (changeDoors_frame _ go.entry s).2.2.2

theorem gameObjects_changeDoors (f : List ℕ → List ℕ) (entry : ℕ) (s : InstanceScript) :
    (s.changeDoors u f entry).gameObjects = s.gameObjects :=
  (changeDoors_frame f entry s).2.2.1

theorem Settled.onGameObjectCreate (h : s.Settled u) (guid : ℕ) (go : GameObject) :
    (s.onGameObjectCreate u guid go).Settled u := by
  rw [InstanceScript.onGameObjectCreate]
  split_ifs with hsome
  · exact h
  · have hnone : s.gameObjects.lookup guid = none := by simpa using hsome
    -- The object is in the map and in the sets before it is looked at.
    obtain ⟨placed, hplaced⟩ : ∃ placed : InstanceScript,
        placed = { s with gameObjects := s.gameObjects.insert guid go } := ⟨_, rfl⟩
    rw [← hplaced]
    obtain ⟨hstate, -, hobjects, -⟩ := changeDoors_frame (u := u) (·.insert guid) go.entry placed
    have hlookup : ∀ g, ((placed.changeDoors u (·.insert guid) go.entry).updateDoorState u
        guid).gameObjects.lookup g =
        if g = guid then some (settle u (placed.changeDoors u (·.insert guid) go.entry) go)
        else s.gameObjects.lookup g := by
      intro g
      rw [lookup_updateDoorState, hobjects, hplaced]
      rw [lookup_insert_ite]
      split_ifs <;> rfl
    refine ⟨fun g id type => ?_, fun g go' hgo' hne => ?_⟩
    · rw [bosses_updateDoorState, mem_changeDoors (Q := fun x p => x = guid ∨ p)
        (fun l x => List.mem_insert_iff) (fun x p => by tauto), hlookup]
      have hsame : (placed.bosses id).door = (s.bosses id).door := by rw [hplaced]
      rw [hsame, h.listed g id type]
      by_cases hg : g = guid
      · subst hg
        simp [hnone, entry_settle]
      · simp [hg]
    · rw [hlookup] at hgo'
      have hbosses : ((placed.changeDoors u (·.insert guid) go.entry).updateDoorState u guid).stateOf =
          (placed.changeDoors u (·.insert guid) go.entry).stateOf := by
        funext i
        rw [stateOf, bosses_updateDoorState, stateOf]
      rw [shouldOpen_congr hbosses]
      split_ifs at hgo' with hg
      · obtain rfl := Option.some.inj hgo'
        rw [entry_settle] at hne ⊢
        exact goState_settle hne
      · rw [shouldOpen_congr hstate, hplaced]
        exact h.doorsRight g go' hgo' hne

theorem Settled.onGameObjectRemove (h : s.Settled u) (guid : ℕ) :
    (s.onGameObjectRemove u guid).Settled u := by
  rw [InstanceScript.onGameObjectRemove]
  split
  next hnone => exact h
  next go hgo =>
    refine ⟨fun g id type => ?_, fun g go' hgo' hne => ?_⟩
    · rw [mem_changeDoors (Q := fun x p => p ∧ x ≠ guid) (fun l x => by simp) (fun x p => by tauto)]
      rw [lookup_erase_ite, gameObjects_changeDoors, h.listed g id type]
      by_cases hg : g = guid
      · subst hg
        simp [hgo]
      · simp [hg]
    · dsimp only at hgo'
      rw [lookup_erase_ite, gameObjects_changeDoors] at hgo'
      split_ifs at hgo' with hg
      have hstate := (changeDoors_frame (u := u) (·.filter (· ≠ guid)) go.entry s).1
      show _ ↔ (s.changeDoors u (·.filter (· ≠ guid)) go.entry).ShouldOpen u go'.entry
      rw [shouldOpen_congr hstate]
      exact h.doorsRight g go' hgo' hne

/-! ## Create and Load -/

/-- No condition of a door tells a boss that has not been started from one that is to be decided. -/
theorem carefulDoors_of_notStarted (h : c.state = .notStarted) : s.CarefulDoors u c := by
  intro _ htbd guid go _
  refine forall₂_congr fun info _ => ?_
  rw [stateOf_withState, Function.update_apply, h]
  split_ifs with heq
  · rw [heq, htbd]
    cases info.type <;> simp [DoorType.Holds]
  · rfl

theorem Settled.calls (h : s.Settled u) (hl : AllAlong (InstanceScript.call u) (CarefulDoors u) s l)
    : (l.foldl (InstanceScript.call u) s).Settled u :=
  foldl_keeps_of_allAlong (fun _ _ h hc => h.call hc) h hl

theorem allAlong_of_notStarted (h : ∀ c ∈ l, c.state = .notStarted) (s : InstanceScript) :
    AllAlong (call u) (CarefulDoors u) s l := by
  induction l generalizing s with
  | nil => trivial
  | cons c l ih =>
    obtain ⟨hc, hl⟩ := List.forall_mem_cons.mp h
    exact ⟨carefulDoors_of_notStarted hc, ih hl _⟩

theorem allAlong_createCalls (u : Setup) (s : InstanceScript) :
    AllAlong (call u) (CarefulDoors u) s (createCalls u) := by
  refine allAlong_of_notStarted (fun c hc => ?_) s
  obtain ⟨i, -, rfl⟩ := List.mem_map.mp hc
  rfl

theorem settled_new (u : Setup) (stored : Option (List Char)) : (new stored).Settled u where
  listed guid id type := by
    refine ⟨fun h => (nomatch h), fun ⟨go, hgo, _⟩ => ?_⟩
    exact absurd hgo (by simp [new])
  doorsRight guid go hgo _ := absurd hgo (by simp [new])

/-- In a map without gameobjects there are no doors to be wrong about. -/
theorem allAlong_of_no_objects (h : s.gameObjects = ∅) :
    AllAlong (call u) (CarefulDoors u) s l := by
  have hlookup : ∀ {s : InstanceScript}, s.gameObjects = ∅ → ∀ guid, s.gameObjects.lookup guid = none := by
    intro s h guid
    rw [h, AList.lookup_empty]
  induction l generalizing s with
  | nil => trivial
  | cons c l ih =>
    refine ⟨fun _ _ guid go hgo => ?_, ih ?_⟩
    · rw [hlookup h] at hgo
      exact nomatch hgo
    · obtain heq | ⟨-, -, heq⟩ | ⟨s', -, hobjects, heq⟩ := call_outcomes u s c
      · rw [heq, h]
      · rw [heq]
        exact h
      · rw [heq, gameObjects_updateSpawnGroups]
        have hnone : s'.gameObjects = ∅ := hobjects.trans h
        refine foldl_keeps (I := fun (t : InstanceScript) => t.gameObjects = ∅) ?_ _ hnone
        intro t guid ht
        rw [updateDoorState, hlookup ht]
        exact ht

end InstanceScript

/-! ## Lives of an instance -/

namespace Life

open InstanceScript

variable {u : Setup} {t : Life}

/-- An operation meets this condition where no call of `SetBossState` in it comes to a state in silence
that a door of the map, or a spawn group once there has been `Create` or `Load`, would have to follow. A
string that is loaded has the headers and a number for each boss; another one, or none, comes only later on
or where no spawn group is listed. -/
def CarefulWorld (u : Setup) (t : Life) : Op → Prop
  | .load data worldBossAlive =>
    (∃ d numbers, data = some d ∧ Reads u d numbers ∧
        AllAlong (call u) (CarefulDoors u) t.script (loadCalls worldBossAlive 0 numbers)) ∨
      ((t.ready = true ∨ u.spawnGroups = []) ∧ ∀ d ∈ data, Rejects u d)
  | .setBossState c => CarefulDoors u t.script c ∧ (t.ready = true → CarefulGroups u t.script c)
  | _ => True

/-- What is asked of the map at each moment: the doors are right, and the spawn groups once `Create` or
`Load` has been called. -/
structure Reflects (u : Setup) (t : Life) : Prop where
  doors : t.script.DoorsRight u
  groups : t.ready = true → t.script.GroupsRight u

/-- What an instance is like after careful operations. -/
structure Current (u : Setup) (t : Life) : Prop where
  settled : t.script.Settled u
  groups : t.ready = true → t.script.GroupsRight u
  readable : ∀ d ∈ t.script.stored, ∃ numbers, Reads u d numbers

theorem current_start (u : Setup) : start.Current u where
  settled := settled_new u none
  groups h := nomatch h
  readable _ h := nomatch h

variable {s : InstanceScript}

theorem readable_call (h : ∀ d ∈ s.stored, ∃ numbers, Reads u d numbers) (c : Call) :
    ∀ d ∈ (call u s c).stored, ∃ numbers, Reads u d numbers := by
  intro d hd
  obtain ⟨-, hstored, -⟩ | ⟨-, -, -, hstored⟩ | ⟨-, -, -, hstored⟩ := call_cases u s c
  · rw [hstored] at hd
    exact h d hd
  · rw [hstored] at hd
    exact h d hd
  · rw [hstored] at hd
    cases hd
    exact ⟨_, reads_getSaveData u _⟩

theorem readable_calls (h : ∀ d ∈ s.stored, ∃ numbers, Reads u d numbers) (l : List Call) :
    ∀ d ∈ ((l.foldl (call u) s).updateSpawnGroups u).stored, ∃ numbers, Reads u d numbers := by
  rw [stored_updateSpawnGroups]
  exact foldl_keeps (I := fun (s : InstanceScript) => ∀ d ∈ s.stored, ∃ numbers, Reads u d numbers)
    (fun _ c h => readable_call h c) l h

theorem current_calls (hmap : u.GroupsOfMap) (hs : s.Settled u)
    (hreadable : ∀ d ∈ s.stored, ∃ numbers, Reads u d numbers)
    (hl : AllAlong (call u) (CarefulDoors u) s l) (ready : Bool) :
    Current u ⟨(l.foldl (call u) s).updateSpawnGroups u, ready⟩ where
  settled := (hs.calls hl).updateSpawnGroups
  groups _ := groupsRight_updateSpawnGroups hmap _
  readable := readable_calls hreadable l

theorem groupsRight_congr (h : s.GroupsRight u) (hstate : s'.stateOf = s.stateOf)
    (htoggled : s'.toggledSpawnGroupIds = s.toggledSpawnGroupIds) : s'.GroupsRight u := by
  intro info hinfo
  rw [wanted_congr hstate, ← h info hinfo, isSpawnGroupActive, isSpawnGroupActive, htoggled]

/-- **A careful operation keeps the map in step with the bosses.** -/
theorem Current.step (hmap : u.GroupsOfMap) (h : t.Current u) {op : Op} (hop : t.CarefulWorld u op) :
    Yields (t.step u op) (Current u) := by
  cases op with
  | create =>
    refine .ok ?_
    rw [create_eq]
    exact current_calls hmap h.settled h.readable (allAlong_createCalls u _) true
  | load data worldBossAlive =>
    obtain ⟨d, numbers, rfl, hreads, hcalls⟩ | ⟨hready, hrejects⟩ := hop
    · show Yields (t.script.load u (some d) worldBossAlive >>= _) _
      rw [load_of_reads worldBossAlive hreads]
      exact .ok (current_calls hmap h.settled h.readable hcalls true)
    · show Yields (t.script.load u data worldBossAlive >>= _) _
      rw [load_of_rejects worldBossAlive hrejects]
      refine .ok ⟨h.settled, fun _ => ?_, h.readable⟩
      obtain hready | hnone := hready
      · exact h.groups hready
      · intro info hinfo
        rw [hnone] at hinfo
        exact nomatch hinfo
  | setBossState c =>
    exact .ok ⟨h.settled.call hop.1, fun hready => (h.groups hready).call hmap (hop.2 hready),
      readable_call h.readable c⟩
  | onGameObjectCreate guid go =>
    obtain ⟨hstate, hstored⟩ := onGameObjectCreate_frame (u := u) t.script guid go
    refine .ok ⟨h.settled.onGameObjectCreate guid go, fun hready => ?_, ?_⟩
    · exact groupsRight_congr (h.groups hready) hstate (toggled_onGameObjectCreate _ _ _)
    · rw [hstored]
      exact h.readable
  | onGameObjectRemove guid =>
    obtain ⟨hstate, hstored⟩ := onGameObjectRemove_frame (u := u) t.script guid
    refine .ok ⟨h.settled.onGameObjectRemove guid, fun hready => ?_, ?_⟩
    · exact groupsRight_congr (h.groups hready) hstate (toggled_onGameObjectRemove _ _)
    · rw [hstored]
      exact h.readable
  | reload worldBossAlive =>
    show Yields ((new t.script.stored).load u t.script.stored worldBossAlive >>= _) _
    cases hstored : t.script.stored with
    | none => exact .ok (current_start u)
    | some d =>
      obtain ⟨numbers, hreads⟩ := h.readable d hstored
      rw [load_of_reads worldBossAlive hreads]
      refine .ok (current_calls hmap (settled_new u (some d)) ?_ (allAlong_of_no_objects rfl) true)
      rintro _ ⟨⟩
      exact ⟨numbers, hreads⟩

/-- **Doors and spawn groups reflect the states of the bosses** at every moment of a run of careful
operations. -/
theorem world_reflects_bosses (u : Setup) (hmap : u.GroupsOfMap) (ops : List Op)
    (h : Admitted (Life.step u) (CarefulWorld u) start ops) (past : List Op) (hpast : past <+: ops) :
    Yields (run (Life.step u) start past) (Reflects u) := by
  obtain ⟨rest, rfl⟩ := hpast
  have hrun := run_keeps_of_admitted (I := Current u) (fun t op h hop => h.step hmap hop)
    (current_start u) h.append.1
  exact hrun.mono fun t ht => ⟨ht.settled.doorsRight, ht.groups⟩

/-- A boss, a door that opens when it is done, and a spawn group that is active then. -/
def doorAndGroup : Setup :=
  ⟨['H'], 1, [(10, ⟨0, .passage⟩)], some [⟨7, 0, 8, true, false⟩],
    fun groupId => if groupId = 7 then some ⟨false, true⟩ else none⟩

theorem groupsOfMap_doorAndGroup : doorAndGroup.GroupsOfMap := by
  intro info hinfo
  obtain rfl := List.mem_singleton.mp hinfo
  exact ⟨_, rfl, rfl⟩

/-- The boss is done while the door is in the map: the door opens, and the group spawns. -/
theorem world_reflects_bosses_done :
    Yields (run (step doorAndGroup) start
      [.create, .onGameObjectCreate 1 ⟨10, .activeAlternative⟩, .setBossState ⟨0, .done, false⟩])
      fun t => (∃ go, t.script.gameObjects.lookup 1 = some go ∧ go.goState = .active) ∧
        t.script.isSpawnGroupActive doorAndGroup 7 = true := by
  have hcareful : Admitted (Life.step doorAndGroup) (CarefulWorld doorAndGroup) start
      [.create, .onGameObjectCreate 1 ⟨10, .activeAlternative⟩, .setBossState ⟨0, .done, false⟩] :=
    ⟨trivial, trivial, ⟨fun _ h => absurd h (by decide), fun _ _ h => absurd h (by decide)⟩, trivial⟩
  obtain ⟨t, ht, hreflects⟩ := world_reflects_bosses doorAndGroup groupsOfMap_doorAndGroup _ hcareful _
    (List.prefix_refl _)
  refine ⟨t, ht, ?_⟩
  cases ht
  refine ⟨⟨_, rfl, (hreflects.doors 1 _ rfl (by decide)).mpr ?_⟩,
    (hreflects.groups rfl _ List.mem_cons_self).mpr ?_⟩
  · intro info hinfo
    obtain rfl := List.mem_singleton.mp hinfo
    rfl
  · refine ⟨⟨_, List.mem_cons_self, rfl, rfl, by decide⟩, ?_⟩
    rintro ⟨info, hinfo, hblock, -⟩
    obtain rfl := List.mem_singleton.mp hinfo
    exact nomatch hblock

/-- **The map does not follow a first state.** The headers of the string are wrong, so the boss is still to
be decided when it is done: its door stays as it was, and its group does not spawn. -/
theorem first_state_not_reflected :
    Yields (run (step doorAndGroup) start
      [.load (some ['X']) fun _ => false, .onGameObjectCreate 1 ⟨10, .activeAlternative⟩,
        .setBossState ⟨0, .done, false⟩])
      fun t => ¬ t.script.DoorsRight doorAndGroup ∧ t.ready = true ∧ ¬ t.script.GroupsRight doorAndGroup := by
  refine .ok ⟨fun hdoors => ?_, rfl, fun hgroups => ?_⟩
  · have hopen := (hdoors 1 _ rfl (by decide)).mpr fun info hinfo => by
      obtain rfl := List.mem_singleton.mp hinfo
      rfl
    exact absurd hopen (by decide)
  · have hactive := (hgroups _ List.mem_cons_self).mpr ⟨⟨_, List.mem_cons_self, rfl, rfl, by decide⟩, by
      rintro ⟨info, hinfo, hblock, -⟩
      obtain rfl := List.mem_singleton.mp hinfo
      exact nomatch hblock⟩
    exact absurd hactive (by decide)

end Life

end Sunstrider.InstanceScripts
