import Mathlib.Tactic.IntervalCases
import Sunstrider.Instances.InstanceScript
import Sunstrider.Lib.Run

/-!
# The progress of an instance

A boss whose state is still to be decided gets its first state in silence: nothing is saved, and no door is
looked at. Progress is kept as long as no boss comes to be done in that way but by what is stored already,
and no state is saved while others are to be decided (`Kept.step`).
-/

namespace Sunstrider.InstanceScripts

open Lib

theorem EncounterState.toNat_lt_five {state : EncounterState} (h : state ≠ .toBeDecided) :
    state.toNat < 5 := by
  cases state <;> simp_all [EncounterState.toNat]

namespace InstanceScript

variable {u : Setup} {s : InstanceScript}

/-! ## What the operations leave alone -/

@[simp] theorem bosses_saveToDB : (s.saveToDB u).bosses = s.bosses := by
  rw [saveToDB]
  split <;> rfl

@[simp] theorem bosses_updateDoorState (guid : ℕ) : (s.updateDoorState u guid).bosses = s.bosses := by
  rw [updateDoorState]
  split
  · rfl
  · split <;> rfl

@[simp] theorem stored_updateDoorState (guid : ℕ) : (s.updateDoorState u guid).stored = s.stored := by
  rw [updateDoorState]
  split
  · rfl
  · split <;> rfl

theorem updateDoors_frame (l : List ℕ) (s : InstanceScript) :
    (l.foldl (fun s guid => s.updateDoorState u guid) s).bosses = s.bosses ∧
      (l.foldl (fun s guid => s.updateDoorState u guid) s).stored = s.stored :=
  foldl_keeps (I := fun (s' : InstanceScript) => s'.bosses = s.bosses ∧ s'.stored = s.stored)
    (fun _ guid h => ⟨(bosses_updateDoorState guid).trans h.1, (stored_updateDoorState guid).trans h.2⟩)
    l ⟨rfl, rfl⟩

theorem setSpawnGroupActive_frame (groupId : ℕ) (state : Bool) :
    ∃ toggled, s.setSpawnGroupActive u groupId state = { s with toggledSpawnGroupIds := toggled } := by
  rw [setSpawnGroupActive]
  split
  · exact ⟨s.toggledSpawnGroupIds, rfl⟩
  · split_ifs
    · exact ⟨s.toggledSpawnGroupIds, rfl⟩
    · exact ⟨_, rfl⟩
    · exact ⟨_, rfl⟩

/-- Only spawn groups are toggled. -/
theorem updateSpawnGroups_frame (s : InstanceScript) :
    ∃ toggled, s.updateSpawnGroups u = { s with toggledSpawnGroupIds := toggled } := by
  refine foldl_keeps (I := fun s' => ∃ toggled, s' = { s with toggledSpawnGroupIds := toggled })
    ?_ (s.newStates u).entries ⟨s.toggledSpawnGroupIds, rfl⟩
  rintro _ pair ⟨toggled, rfl⟩
  dsimp only
  split
  · exact ⟨toggled, rfl⟩
  · obtain ⟨toggled', h⟩ := setSpawnGroupActive_frame (u := u)
      (s := { s with toggledSpawnGroupIds := toggled }) pair.1 (decide (pair.2 = .spawn))
    exact ⟨toggled', h⟩

@[simp] theorem bosses_updateSpawnGroups : (s.updateSpawnGroups u).bosses = s.bosses := by
  obtain ⟨toggled, h⟩ := updateSpawnGroups_frame (u := u) s
  rw [h]

@[simp] theorem stored_updateSpawnGroups : (s.updateSpawnGroups u).stored = s.stored := by
  obtain ⟨toggled, h⟩ := updateSpawnGroups_frame (u := u) s
  rw [h]

/-! ## What `SetBossState` does to the states -/

/-- The state of a boss. -/
def stateOf (s : InstanceScript) (id : ℕ) : EncounterState := (s.bosses id).state

theorem stateOf_updateSpawnGroups (s : InstanceScript) : (s.updateSpawnGroups u).stateOf = s.stateOf := by
  funext id
  rw [stateOf, bosses_updateSpawnGroups, stateOf]

theorem changeDoors_frame (f : List ℕ → List ℕ) (entry : ℕ) (s : InstanceScript) :
    (s.changeDoors u f entry).stateOf = s.stateOf ∧ (s.changeDoors u f entry).stored = s.stored ∧
      (s.changeDoors u f entry).gameObjects = s.gameObjects ∧
      (s.changeDoors u f entry).toggledSpawnGroupIds = s.toggledSpawnGroupIds := by
  refine foldl_keeps (I := fun (s' : InstanceScript) => s'.stateOf = s.stateOf ∧ s'.stored = s.stored ∧
    s'.gameObjects = s.gameObjects ∧ s'.toggledSpawnGroupIds = s.toggledSpawnGroupIds) ?_ _
    ⟨rfl, rfl, rfl, rfl⟩
  rintro s' info ⟨hstate, hrest⟩
  refine ⟨?_, hrest⟩
  rw [← hstate]
  funext id
  by_cases h : id = info.boss
  · subst h
    simp [stateOf]
  · simp [stateOf, h]

theorem onGameObjectCreate_frame (s : InstanceScript) (guid : ℕ) (go : GameObject) :
    (s.onGameObjectCreate u guid go).stateOf = s.stateOf ∧
      (s.onGameObjectCreate u guid go).stored = s.stored := by
  rw [onGameObjectCreate]
  split_ifs
  · exact ⟨rfl, rfl⟩
  · obtain ⟨hstate, hstored, -⟩ := changeDoors_frame (u := u) (·.insert guid) go.entry
      { s with gameObjects := s.gameObjects.insert guid go }
    refine ⟨Eq.trans ?_ hstate, (stored_updateDoorState guid).trans hstored⟩
    funext id
    rw [stateOf, bosses_updateDoorState, stateOf]

theorem onGameObjectRemove_frame (s : InstanceScript) (guid : ℕ) :
    (s.onGameObjectRemove u guid).stateOf = s.stateOf ∧
      (s.onGameObjectRemove u guid).stored = s.stored := by
  rw [onGameObjectRemove]
  split
  · exact ⟨rfl, rfl⟩
  · next go _ =>
    obtain ⟨hstate, hstored, -⟩ := changeDoors_frame (u := u) (·.filter (· ≠ guid)) go.entry s
    exact ⟨hstate, hstored⟩

/-- The call changes the state of a boss, and saves it. -/
def Accepts (s : InstanceScript) (id : ℕ) (state : EncounterState) (worldBossAlive : Bool) : Prop :=
  s.stateOf id ≠ .toBeDecided ∧ s.stateOf id ≠ state ∧ s.stateOf id ≠ .done ∧
    ¬ (state = .done ∧ worldBossAlive = true)

theorem stateOf_withState (id : ℕ) (state : EncounterState) :
    (s.withState id state).stateOf = Function.update s.stateOf id state := by
  funext i
  by_cases h : i = id
  · subst h
    simp [stateOf, withState]
  · simp [stateOf, withState, h]

theorem setBossState_cases (u : Setup) (s : InstanceScript) (id : ℕ) (state : EncounterState)
    (worldBossAlive : Bool) :
    ((s.setBossState u id state worldBossAlive).2 = s ∧
        (u.bossNumber ≤ id ∨ s.stateOf id ≠ .toBeDecided)) ∨
      (id < u.bossNumber ∧ s.stateOf id = .toBeDecided ∧
        (s.setBossState u id state worldBossAlive).2 = s.withState id state) ∨
      (id < u.bossNumber ∧ s.Accepts id state worldBossAlive ∧
        (s.setBossState u id state worldBossAlive).2.stateOf = Function.update s.stateOf id state ∧
        (s.setBossState u id state worldBossAlive).2.stored =
          ((s.withState id state).saveToDB u).stored) := by
  rw [setBossState]
  split_ifs with hid htbd hsame hdone halive
  · exact .inr (.inl ⟨hid, htbd, rfl⟩)
  · exact .inl ⟨rfl, .inr htbd⟩
  · exact .inl ⟨rfl, .inr htbd⟩
  · exact .inl ⟨rfl, .inr htbd⟩
  · refine .inr (.inr ⟨hid, ⟨htbd, hsame, hdone, halive⟩, ?_, ?_⟩)
    · rw [← stateOf_withState]
      funext i
      simp [stateOf, (updateDoors_frame _ _).1]
    · simp [(updateDoors_frame _ _).2]
  · exact .inl ⟨rfl, .inl (not_lt.mp hid)⟩

/-! ## Runs of `SetBossState` -/

/-- The calls of `Create`. -/
def createCalls (u : Setup) : List Call := (List.range u.bossNumber).map fun i => ⟨i, .notStarted, false⟩

/-- The calls of `ReadSaveDataBossStates` for the numbers from a boss on. -/
def loadCalls (worldBossAlive : ℕ → Bool) : ℕ → List ℕ → List Call
  | _, [] => []
  | bossId, v :: l =>
    if settled v < 5 then ⟨bossId, .ofValue (settled v), worldBossAlive bossId⟩ ::
      loadCalls worldBossAlive (bossId + 1) l
    else loadCalls worldBossAlive (bossId + 1) l

/-- The string has the headers, and a number for each boss. -/
def Reads (u : Setup) (data : List Char) (numbers : List ℕ) : Prop :=
  ∃ stream, readSaveDataHeaders u.headers (.new data) = .ok (true, stream) ∧
    stream.readNumbers u.bossNumber = some numbers

theorem create_eq (u : Setup) (s : InstanceScript) :
    s.create u = ((createCalls u).foldl (call u) s).updateSpawnGroups u := by
  rw [create, createCalls, List.foldl_map]
  rfl

variable {numbers : List ℕ}

theorem readBossStates_of_numbers (worldBossAlive : ℕ → Bool) {n : ℕ} (bossId : ℕ) {data : Stream}
    (h : data.readNumbers n = some numbers) (s : InstanceScript) :
    readBossStates u worldBossAlive n bossId data s =
      .ok ((loadCalls worldBossAlive bossId numbers).foldl (call u) s) := by
  induction n generalizing bossId data numbers s with
  | zero =>
    cases h
    rfl
  | succ n ih =>
    obtain ⟨v, data', numbers', hread, hrest, rfl⟩ := Stream.readNumbers_succ h
    rw [readBossStates, hread]
    dsimp only
    rw [ih (bossId + 1) hrest, loadCalls]
    split_ifs <;> rfl

variable {data : List Char}

theorem load_of_reads (worldBossAlive : ℕ → Bool) (h : Reads u data numbers) (s : InstanceScript) :
    s.load u (some data) worldBossAlive =
      .ok (((loadCalls worldBossAlive 0 numbers).foldl (call u) s).updateSpawnGroups u) := by
  obtain ⟨stream, hheaders, hnumbers⟩ := h
  simp [load, hheaders, bind, Except.bind, readBossStates_of_numbers worldBossAlive 0 hnumbers]

/-! ## What is written can be read -/

theorem exists_digit (state : EncounterState) :
    ∃ c : Char, (toString state.toNat).toList = [c] ∧ c.isDigit = true ∧ Stream.isSpace c = false ∧
      c.toNat - 48 = state.toNat := by
  cases state with
  | notStarted => exact ⟨'0', by decide⟩
  | inProgress => exact ⟨'1', by decide⟩
  | fail => exact ⟨'2', by decide⟩
  | done => exact ⟨'3', by decide⟩
  | special => exact ⟨'4', by decide⟩
  | toBeDecided => exact ⟨'5', by decide⟩

theorem readSaveDataHeaders_written {headers : List Char} (h : ∀ c ∈ headers, Stream.isSpace c = false)
    (spaces : List Char) (hspaces : ∀ x ∈ spaces, Stream.isSpace x = true) (rest : List Char) :
    ∃ spaces', (∀ x ∈ spaces', Stream.isSpace x = true) ∧
      readSaveDataHeaders headers ⟨spaces ++ (headers.flatMap (fun c => [c, ' ']) ++ rest), true⟩ =
        .ok (true, ⟨spaces' ++ rest, true⟩) := by
  induction headers generalizing spaces with
  | nil => exact ⟨spaces, hspaces, rfl⟩
  | cons c headers ih =>
    obtain ⟨hc, hheaders⟩ := List.forall_mem_cons.mp h
    obtain ⟨spaces', hspaces', hread⟩ := ih hheaders [' ']
      (fun x hx => by rw [List.mem_singleton.mp hx]; decide)
    refine ⟨spaces', hspaces', ?_⟩
    rw [List.flatMap_cons, List.append_assoc, List.cons_append, readSaveDataHeaders,
      Stream.readChar_cons hc hspaces]
    dsimp only
    rw [if_neg (not_not.mpr rfl)]
    exact hread

theorem readNumbers_written (states : List EncounterState) (spaces : List Char)
    (hspaces : ∀ x ∈ spaces, Stream.isSpace x = true) :
    Stream.readNumbers states.length
        ⟨spaces ++ states.flatMap fun state => (toString state.toNat).toList ++ [' '], true⟩ =
      some (states.map EncounterState.toNat) := by
  induction states generalizing spaces with
  | nil => rfl
  | cons state states ih =>
    obtain ⟨c, hstring, hdigit, hspace, hvalue⟩ := exists_digit state
    rw [List.length_cons, List.flatMap_cons, hstring, List.append_assoc, List.singleton_append,
      List.singleton_append, Stream.readNumbers,
      Stream.readUInt32_digit hdigit hspace hspaces (by decide), hvalue]
    dsimp only
    have hrest := ih [' '] (fun x hx => by rw [List.mem_singleton.mp hx]; decide)
    rw [List.singleton_append] at hrest
    rw [hrest]
    rfl

/-- **What `GetSaveData` writes is read as the states that were written.** -/
theorem reads_getSaveData (u : Setup) (s : InstanceScript) :
    Reads u (s.getSaveData u) ((List.range u.bossNumber).map fun i => (s.stateOf i).toNat) := by
  have hheaders : ∀ c ∈ u.headers, Stream.isSpace c = false := fun c hc =>
    Stream.isSpace_eq_false_of_isAlpha (List.mem_filter.mp hc).2
  obtain ⟨spaces, hspaces, hread⟩ := readSaveDataHeaders_written hheaders []
    (fun x hx => nomatch hx)
    ((List.range u.bossNumber).flatMap fun i => (toString (s.bosses i).state.toNat).toList ++ [' '])
  refine ⟨_, hread, ?_⟩
  have hnumbers := readNumbers_written ((List.range u.bossNumber).map s.stateOf) spaces hspaces
  rw [List.length_map, List.length_range, List.flatMap_map, List.map_map] at hnumbers
  exact hnumbers

/-! ## Progress -/

/-- The string that is stored has the boss as done. -/
def StoredDone (u : Setup) (stored : Option (List Char)) (id : ℕ) : Prop :=
  ∃ data numbers, stored = some data ∧ Reads u data numbers ∧ numbers[id]? = some 3

/-- No state is to be decided. -/
def Decided (u : Setup) (s : InstanceScript) : Prop := ∀ id < u.bossNumber, s.stateOf id ≠ .toBeDecided

/-- The string that is stored has a state for each boss, and all bosses that are done are done in it. -/
structure Kept (u : Setup) (s : InstanceScript) : Prop where
  readable : ∀ data ∈ s.stored, ∃ numbers, Reads u data numbers ∧ ∀ v ∈ numbers, v < 5
  done : ∀ id < u.bossNumber, s.stateOf id = .done → StoredDone u s.stored id

theorem kept_new (u : Setup) : (new none).Kept u where
  readable _ h := nomatch h
  done _ _ h := nomatch h

/-- A call of `SetBossState` meets this condition where it does not make a boss done in silence, but for one
that is done in what is stored, and saves no state that is to be decided. -/
def CarefulCall (u : Setup) (s : InstanceScript) (c : Call) : Prop :=
  c.id < u.bossNumber →
    (s.stateOf c.id = .toBeDecided → c.state = .done → StoredDone u s.stored c.id) ∧
      (s.Accepts c.id c.state c.worldBossAlive → c.state ≠ .toBeDecided ∧ s.Decided u)

theorem call_cases (u : Setup) (s : InstanceScript) (c : Call) :
    ((call u s c).stateOf = s.stateOf ∧ (call u s c).stored = s.stored ∧
        (u.bossNumber ≤ c.id ∨ s.stateOf c.id ≠ .toBeDecided)) ∨
      (c.id < u.bossNumber ∧ s.stateOf c.id = .toBeDecided ∧
        (call u s c).stateOf = Function.update s.stateOf c.id c.state ∧
        (call u s c).stored = s.stored) ∨
      (c.id < u.bossNumber ∧ s.Accepts c.id c.state c.worldBossAlive ∧
        (call u s c).stateOf = Function.update s.stateOf c.id c.state ∧
        (call u s c).stored = some ((s.withState c.id c.state).getSaveData u)) := by
  obtain ⟨heq, hwhy⟩ | ⟨hid, htbd, heq⟩ | ⟨hid, haccepts, hstate, hstored⟩ :=
    setBossState_cases u s c.id c.state c.worldBossAlive
  · refine .inl ⟨?_, ?_, hwhy⟩
    · rw [call, heq]
    · rw [call, heq]
  · refine .inr (.inl ⟨hid, htbd, ?_, ?_⟩)
    · rw [call, heq, stateOf_withState]
    · rw [call, heq]
      rfl
  · refine .inr (.inr ⟨hid, haccepts, hstate, hstored.trans ?_⟩)
    have hne : (s.withState c.id c.state).getSaveData u ≠ [] := by
      intro hnil
      have hboss := List.flatMap_eq_nil_iff.mp (List.append_eq_nil_iff.mp hnil).2 c.id
        (List.mem_range.mpr hid)
      exact List.cons_ne_nil _ _ (List.append_eq_nil_iff.mp hboss).2
    rw [saveToDB, if_neg hne]

variable {id : ℕ}

theorem call_done (h : s.stateOf id = .done) (c : Call) : (call u s c).stateOf id = .done := by
  obtain ⟨hstate, -, -⟩ | ⟨-, htbd, hstate, -⟩ | ⟨-, haccepts, hstate, -⟩ := call_cases u s c
  · rw [hstate, h]
  · rw [hstate, Function.update_of_ne, h]
    rintro rfl
    rw [h] at htbd
    exact nomatch htbd
  · rw [hstate, Function.update_of_ne, h]
    rintro rfl
    exact haccepts.2.2.1 h

theorem calls_done (l : List Call) (h : s.stateOf id = .done) :
    (l.foldl (call u) s).stateOf id = .done :=
  foldl_keeps (I := fun (s : InstanceScript) => s.stateOf id = .done) (fun _ c h => call_done h c) l h

variable {c : Call}

theorem Decided.call (h : s.Decided u) (hc : s.CarefulCall u c) : (call u s c).Decided u := by
  intro id hid
  obtain ⟨hstate, -, -⟩ | ⟨hcid, htbd, -, -⟩ | ⟨hcid, haccepts, hstate, -⟩ := call_cases u s c
  · rw [hstate]
    exact h id hid
  · exact absurd htbd (h c.id hcid)
  · rw [hstate, Function.update_apply]
    split_ifs
    · exact ((hc hcid).2 haccepts).1
    · exact h id hid

theorem Kept.call (h : s.Kept u) (hc : s.CarefulCall u c) : (call u s c).Kept u := by
  obtain ⟨hstate, hstored, -⟩ | ⟨hcid, htbd, hstate, hstored⟩ | ⟨hcid, haccepts, hstate, hstored⟩ :=
    call_cases u s c
  · refine ⟨?_, ?_⟩
    · rw [hstored]
      exact h.readable
    · rw [hstate, hstored]
      exact h.done
  · refine ⟨?_, fun id hid hdone => ?_⟩
    · rw [hstored]
      exact h.readable
    · rw [hstored]
      rw [hstate, Function.update_apply] at hdone
      split_ifs at hdone with heq
      · rw [heq]
        exact (hc hcid).1 htbd hdone
      · exact h.done id hid hdone
  · obtain ⟨hnew, hdecided⟩ := (hc hcid).2 haccepts
    have hreads := reads_getSaveData u (s.withState c.id c.state)
    rw [stateOf_withState] at hreads
    refine ⟨fun data hdata => ?_, fun id hid hdone => ?_⟩
    · rw [hstored] at hdata
      cases hdata
      refine ⟨_, hreads, fun v hv => ?_⟩
      obtain ⟨i, hi, rfl⟩ := List.mem_map.mp hv
      apply EncounterState.toNat_lt_five
      rw [Function.update_apply]
      split_ifs
      · exact hnew
      · exact hdecided i (List.mem_range.mp hi)
    · refine ⟨_, _, hstored, hreads, ?_⟩
      rw [hstate] at hdone
      rw [List.getElem?_map, List.getElem?_range hid, Option.map_some, hdone]
      rfl

/-! ## Create and Load -/

theorem call_decides (u : Setup) (s : InstanceScript) (hc : c.state ≠ .toBeDecided)
    (hid : id < u.bossNumber) (h : s.stateOf id ≠ .toBeDecided ∨ id = c.id) :
    (call u s c).stateOf id ≠ .toBeDecided := by
  obtain ⟨hstate, -, hwhy⟩ | ⟨-, -, hstate, -⟩ | ⟨-, -, hstate, -⟩ := call_cases u s c
  · rw [hstate]
    obtain h | rfl := h
    · exact h
    · exact hwhy.resolve_left (not_le.mpr hid)
  · rw [hstate, Function.update_apply]
    split_ifs with heq
    · exact hc
    · exact h.resolve_right heq
  · rw [hstate, Function.update_apply]
    split_ifs with heq
    · exact hc
    · exact h.resolve_right heq

theorem calls_decide {l : List Call} (hl : ∀ c ∈ l, c.state ≠ .toBeDecided)
    (hid : id < u.bossNumber) (h : s.stateOf id ≠ .toBeDecided ∨ id ∈ l.map Call.id) :
    (l.foldl (call u) s).stateOf id ≠ .toBeDecided := by
  induction l generalizing s with
  | nil => exact h.resolve_right List.not_mem_nil
  | cons c l ih =>
    obtain ⟨hc, hl⟩ := List.forall_mem_cons.mp hl
    refine ih hl ?_
    rw [List.map_cons, List.mem_cons, ← or_assoc] at h
    exact h.imp_left (call_decides u s hc hid)

theorem settled_eq {v : ℕ} (h : v < 5) :
    EncounterState.ofValue (settled v) = if v = 3 then .done else .notStarted := by
  interval_cases v <;> rfl

theorem settled_lt {v : ℕ} (h : settled v < 5) : v < 5 := by
  rw [settled] at h
  split_ifs at h with hv
  · omega
  · exact h

theorem loadCalls_ne_toBeDecided (worldBossAlive : ℕ → Bool) (bossId : ℕ) (numbers : List ℕ) :
    ∀ c ∈ loadCalls worldBossAlive bossId numbers, c.state ≠ .toBeDecided := by
  induction numbers generalizing bossId with
  | nil => exact fun c hc => nomatch hc
  | cons v numbers ih =>
    rw [loadCalls]
    split_ifs with hv
    · refine List.forall_mem_cons.mpr ⟨?_, ih (bossId + 1)⟩
      rw [settled_eq (settled_lt hv)]
      split_ifs <;> exact EncounterState.noConfusion
    · exact ih (bossId + 1)

theorem ids_loadCalls (worldBossAlive : ℕ → Bool) (bossId : ℕ) (h : ∀ v ∈ numbers, v < 5) :
    (loadCalls worldBossAlive bossId numbers).map Call.id = List.range' bossId numbers.length := by
  induction numbers generalizing bossId with
  | nil => rfl
  | cons v numbers ih =>
    obtain ⟨hv, hnumbers⟩ := List.forall_mem_cons.mp h
    have hsettled : settled v < 5 := by
      rw [settled]
      split_ifs <;> omega
    rw [loadCalls, if_pos hsettled, List.map_cons, ih (bossId + 1) hnumbers, List.length_cons,
      List.range'_succ]

theorem load_undecided (worldBossAlive : ℕ → Bool) (bossId : ℕ) (hnumbers : ∀ v ∈ numbers, v < 5)
    (hlength : bossId + numbers.length ≤ u.bossNumber)
    (h : ∀ id, bossId ≤ id → s.stateOf id = .toBeDecided) :
    (∀ id, ((loadCalls worldBossAlive bossId numbers).foldl (call u) s).stateOf id =
      if bossId ≤ id ∧ id < bossId + numbers.length then
        if numbers[id - bossId]? = some 3 then .done else .notStarted
      else s.stateOf id) ∧
    ((loadCalls worldBossAlive bossId numbers).foldl (call u) s).stored = s.stored := by
  induction numbers generalizing bossId s with
  | nil =>
    refine ⟨fun id => ?_, rfl⟩
    rw [if_neg fun hid => absurd hid.2 (not_lt.mpr hid.1)]
    rfl
  | cons v numbers ih =>
    obtain ⟨hv, hrest⟩ := List.forall_mem_cons.mp hnumbers
    rw [List.length_cons] at hlength ⊢
    have hsettled : settled v < 5 := by
      rw [settled]
      split_ifs <;> omega
    have hcall : call u s ⟨bossId, .ofValue (settled v), worldBossAlive bossId⟩ =
        s.withState bossId (.ofValue (settled v)) := by
      rw [call, setBossState, if_pos (show bossId < u.bossNumber by omega)]
      exact congrArg Prod.snd (if_pos (h bossId le_rfl))
    rw [loadCalls, if_pos hsettled, List.foldl_cons, hcall]
    obtain ⟨hstates, hstored⟩ := ih (bossId + 1)
      (s := s.withState bossId (.ofValue (settled v))) hrest (by omega) (fun id hid => by
        rw [stateOf_withState, Function.update_of_ne (by omega)]
        exact h id (by omega))
    refine ⟨fun id => ?_, hstored⟩
    rw [hstates, stateOf_withState, settled_eq hv]
    by_cases hid : id = bossId
    · subst hid
      simp
    · rw [Function.update_of_ne hid]
      by_cases hin : bossId + 1 ≤ id ∧ id < bossId + 1 + numbers.length
      · obtain ⟨k, rfl⟩ := Nat.exists_eq_add_of_le hin.1
        have hall : bossId ≤ bossId + 1 + k ∧ bossId + 1 + k < bossId + (numbers.length + 1) := by
          omega
        rw [if_pos hin, if_pos hall, show bossId + 1 + k - (bossId + 1) = k by omega,
          show bossId + 1 + k - bossId = k + 1 by omega, List.getElem?_cons_succ]
      · have hout : ¬ (bossId ≤ id ∧ id < bossId + (numbers.length + 1)) := by omega
        rw [if_neg hin, if_neg hout]

theorem Reads.unique {l l' : List ℕ} (h : Reads u data l) (h' : Reads u data l') : l = l' := by
  obtain ⟨stream, hheaders, hl⟩ := h
  obtain ⟨stream', hheaders', hl'⟩ := h'
  have heq := Except.ok.inj (hheaders.symm.trans hheaders')
  obtain rfl : stream = stream' := congrArg Prod.snd heq
  exact Option.some.inj (hl.symm.trans hl')

/-- **A fresh script has what the string says**: done is what was written as done, and nothing else has
been started. -/
theorem load_new (stored : Option (List Char)) (worldBossAlive : ℕ → Bool)
    (h : Reads u data numbers) (hnumbers : ∀ v ∈ numbers, v < 5) :
    Yields ((new stored).load u (some data) worldBossAlive) fun s =>
      (∀ id < u.bossNumber, s.stateOf id = if numbers[id]? = some 3 then .done else .notStarted) ∧
        s.stored = stored := by
  have hlength : numbers.length = u.bossNumber := by
    obtain ⟨stream, -, hread⟩ := h
    exact Stream.length_readNumbers hread
  obtain ⟨hstates, hstored⟩ := load_undecided (u := u) (s := new stored) worldBossAlive 0
    hnumbers (by omega) (fun _ _ => rfl)
  rw [load_of_reads worldBossAlive h]
  refine .ok ⟨fun id hid => ?_, (stored_updateSpawnGroups).trans hstored⟩
  rw [stateOf, bosses_updateSpawnGroups]
  refine (hstates id).trans ?_
  rw [if_pos ⟨Nat.zero_le id, by omega⟩, Nat.sub_zero]

end InstanceScript

/-! ## Lives of an instance -/

namespace Life

open InstanceScript

variable {u : Setup} {t : Life}

/-- The string does not begin with the headers. -/
def Rejects (u : Setup) (data : List Char) : Prop :=
  ∃ stream, readSaveDataHeaders u.headers (.new data) = .ok (false, stream)

variable {s : InstanceScript}

theorem load_of_rejects {data : Option (List Char)} (worldBossAlive : ℕ → Bool)
    (h : ∀ d ∈ data, Rejects u d) : s.load u data worldBossAlive = .ok s := by
  cases data with
  | none => rfl
  | some d =>
    obtain ⟨stream, hread⟩ := h d rfl
    simp [load, hread, bind, Except.bind]

/-- An operation meets this condition where each call of `SetBossState` in it is careful, and where a string
that is loaded has a state for each boss, or the bosses have their states already. -/
def Careful (u : Setup) (t : Life) : Op → Prop
  | .create => AllAlong (call u) (CarefulCall u) t.script (createCalls u)
  | .load data worldBossAlive =>
    (∃ d numbers, data = some d ∧ Reads u d numbers ∧
        (t.script.Decided u ∨ ∀ v ∈ numbers, v < 5) ∧
        AllAlong (call u) (CarefulCall u) t.script (loadCalls worldBossAlive 0 numbers)) ∨
      (t.script.Decided u ∧ ∀ d ∈ data, Rejects u d)
  | .setBossState c => CarefulCall u t.script c
  | _ => True

structure Sound (u : Setup) (t : Life) : Prop where
  kept : t.script.Kept u
  decided : t.ready = true → t.script.Decided u

theorem sound_start (u : Setup) : start.Sound u where
  kept := kept_new u
  decided h := nomatch h

theorem kept_congr {s' : InstanceScript} (h : s.Kept u) (hstate : s'.stateOf = s.stateOf)
    (hstored : s'.stored = s.stored) : s'.Kept u := by
  refine ⟨?_, ?_⟩
  · rw [hstored]
    exact h.readable
  · rw [hstate, hstored]
    exact h.done

theorem kept_calls (h : s.Kept u) {l : List Call} (hl : AllAlong (call u) (CarefulCall u) s l) :
    ((l.foldl (call u) s).updateSpawnGroups u).Kept u :=
  kept_congr (foldl_keeps_of_allAlong (fun _ _ h hc => h.call hc) h hl) (stateOf_updateSpawnGroups _)
    stored_updateSpawnGroups

theorem Sound.of_frame (h : t.Sound u) {s' : InstanceScript}
    (hframe : s'.stateOf = t.script.stateOf ∧ s'.stored = t.script.stored) :
    Sound u { t with script := s' } ∧
      ∀ id < u.bossNumber, t.script.stateOf id = .done → s'.stateOf id = .done := by
  obtain ⟨hstate, hstored⟩ := hframe
  refine ⟨⟨kept_congr h.kept hstate hstored, fun hready id hid => ?_⟩, fun id _ hdone => ?_⟩
  · rw [hstate]
    exact h.decided hready id hid
  · rw [hstate]
    exact hdone

/-- **A careful operation keeps the progress**, and no boss that is done is undone. -/
theorem Sound.step (h : t.Sound u) {op : Op} (hop : t.Careful u op) :
    Yields (t.step u op) fun t' =>
      t'.Sound u ∧ ∀ id < u.bossNumber, t.script.stateOf id = .done → t'.script.stateOf id = .done := by
  cases op with
  | create =>
    refine .ok ⟨⟨?_, fun _ id hid => ?_⟩, fun id hid hdone => ?_⟩
    · rw [create_eq]
      exact kept_calls h.kept hop
    · rw [create_eq, stateOf_updateSpawnGroups]
      refine calls_decide ?_ hid (.inr ?_)
      · intro c hc
        obtain ⟨i, -, rfl⟩ := List.mem_map.mp hc
        exact EncounterState.noConfusion
      · rw [createCalls, List.map_map]
        exact List.mem_map.mpr ⟨id, List.mem_range.mpr hid, rfl⟩
    · show (t.script.create u).stateOf id = .done
      rw [create_eq, stateOf_updateSpawnGroups]
      exact calls_done _ hdone
  | load data worldBossAlive =>
    obtain ⟨d, numbers, rfl, hreads, hnumbers, hcalls⟩ | ⟨hdecided, hrejects⟩ := hop
    · show Yields (t.script.load u (some d) worldBossAlive >>= _) _
      rw [load_of_reads worldBossAlive hreads]
      refine .ok ⟨⟨kept_calls h.kept hcalls, fun _ id hid => ?_⟩, fun id hid hdone => ?_⟩
      · dsimp only
        rw [stateOf_updateSpawnGroups]
        refine calls_decide (loadCalls_ne_toBeDecided worldBossAlive 0 numbers) hid
          (hnumbers.imp (fun hdecided => hdecided id hid) fun hlt => ?_)
        obtain ⟨stream, -, hread⟩ := hreads
        rw [ids_loadCalls worldBossAlive 0 hlt, Stream.length_readNumbers hread, ← List.range_eq_range']
        exact List.mem_range.mpr hid
      · dsimp only
        rw [stateOf_updateSpawnGroups]
        exact calls_done _ hdone
    · show Yields (t.script.load u data worldBossAlive >>= _) _
      rw [load_of_rejects worldBossAlive hrejects]
      exact .ok ⟨⟨h.kept, fun _ => hdecided⟩, fun id _ hdone => hdone⟩
  | setBossState c =>
    exact .ok ⟨⟨h.kept.call hop, fun hready => (h.decided hready).call hop⟩,
      fun id _ hdone => call_done hdone c⟩
  | onGameObjectCreate guid go =>
    exact .ok (h.of_frame (onGameObjectCreate_frame t.script guid go))
  | onGameObjectRemove guid =>
    exact .ok (h.of_frame (onGameObjectRemove_frame t.script guid))
  | reload worldBossAlive =>
    show Yields ((new t.script.stored).load u t.script.stored worldBossAlive >>= _) _
    cases hstored : t.script.stored with
    | none =>
      refine .ok ⟨⟨kept_new u, fun hready => nomatch hready⟩, fun id hid hdone => ?_⟩
      obtain ⟨d, numbers, hd, -⟩ := h.kept.done id hid hdone
      rw [hstored] at hd
      exact nomatch hd
    | some d =>
      obtain ⟨numbers, hreads, hnumbers⟩ := h.kept.readable d hstored
      refine (load_new (some d) worldBossAlive hreads hnumbers).bind fun s ⟨hstates, hs⟩ => .ok ?_
      refine ⟨⟨⟨fun d' hd' => ?_, fun id hid hdone => ?_⟩, fun _ id hid => ?_⟩, fun id hid hdone => ?_⟩
      · rw [hs] at hd'
        cases hd'
        exact ⟨numbers, hreads, hnumbers⟩
      · refine ⟨d, numbers, hs, hreads, ?_⟩
        have hstate := hstates id hid
        by_contra hne
        rw [if_neg hne, hdone] at hstate
        exact nomatch hstate
      · rw [hstates id hid]
        split_ifs <;> exact EncounterState.noConfusion
      · obtain ⟨d', numbers', hd', hreads', hthree⟩ := h.kept.done id hid hdone
        rw [hstored] at hd'
        cases hd'
        obtain rfl := hreads.unique hreads'
        rw [hstates id hid, if_pos hthree]

/-- What is asked of an instance at each moment: all states are decided once `Create` or `Load` has been
called, and a fresh script that loads what is saved has the same bosses done, and no other started. -/
structure KeepsProgress (u : Setup) (t : Life) : Prop where
  decided : t.ready = true → t.script.Decided u
  saved : t.ready = true → ∀ stored worldBossAlive,
    Yields ((new stored).load u (some (t.script.getSaveData u)) worldBossAlive) fun s =>
      ∀ id < u.bossNumber, s.stateOf id = if t.script.stateOf id = .done then .done else .notStarted

theorem Sound.keepsProgress (h : t.Sound u) : t.KeepsProgress u where
  decided := h.decided
  saved hready stored worldBossAlive := by
    have hlt : ∀ v ∈ (List.range u.bossNumber).map fun i => (t.script.stateOf i).toNat, v < 5 := by
      intro v hv
      obtain ⟨i, hi, rfl⟩ := List.mem_map.mp hv
      exact EncounterState.toNat_lt_five (h.decided hready i (List.mem_range.mp hi))
    refine (load_new stored worldBossAlive (reads_getSaveData u t.script) hlt).mono fun s hs id hid => ?_
    rw [hs.1 id hid, List.getElem?_map, List.getElem?_range hid, Option.map_some]
    cases t.script.stateOf id <;> rfl

/-- **Progress is never lost or undone** in a run of careful operations: at every moment the states are as
they should be, and a boss that is done at one moment is done at every later one. -/
theorem progress_kept (u : Setup) (ops : List Op) (h : Admitted (Life.step u) (Careful u) start ops)
    (past more : List Op) (hpast : past ++ more <+: ops) :
    ∃ t t', run (Life.step u) start past = .ok t ∧ run (Life.step u) start (past ++ more) = .ok t' ∧
      t.KeepsProgress u ∧ t'.KeepsProgress u ∧
      ∀ id < u.bossNumber, t.script.stateOf id = .done → t'.script.stateOf id = .done := by
  obtain ⟨rest, rfl⟩ := hpast
  obtain ⟨hpast, hmore⟩ := h.append.1.append
  obtain ⟨t, ht, hsound⟩ := run_keeps_of_admitted (I := Sound u)
    (fun t op h hop => (h.step hop).mono fun _ ht' => ht'.1) (sound_start u) hpast
  obtain ⟨t', ht', hsound', hdone⟩ := run_keeps_of_admitted
    (I := fun t' => t'.Sound u ∧
      ∀ id < u.bossNumber, t.script.stateOf id = .done → t'.script.stateOf id = .done)
    (fun t' op h hop => (h.1.step hop).mono fun t'' ht'' =>
      ⟨ht''.1, fun id hid hdone => ht''.2 id hid (h.2 id hid hdone)⟩)
    ⟨hsound, fun _ _ hdone => hdone⟩ (hmore t ht)
  refine ⟨t, t', ht, ?_, hsound.keepsProgress, hsound'.keepsProgress, hdone⟩
  rw [run, List.foldlM_append]
  exact (congrArg (· >>= fun t => List.foldlM (Life.step u) t more) ht).trans ht'

/-- Bosses, and nothing that depends on them. -/
def justBosses (bossNumber : ℕ) : Setup := ⟨['H'], bossNumber, [], none, fun _ => none⟩

/-- A boss that is done is done after the instance has been unloaded and loaded. -/
theorem progress_kept_reload :
    ∃ t, run (step (justBosses 1)) start
        [.create, .setBossState ⟨0, .done, false⟩, .reload fun _ => false] = .ok t ∧
      t.script.stateOf 0 = .done := by
  have hcareful : Admitted (Life.step (justBosses 1)) (Careful (justBosses 1)) start
      [.create, .setBossState ⟨0, .done, false⟩, .reload fun _ => false] := by
    have hcreate : CarefulCall (justBosses 1) (new none) ⟨0, .notStarted, false⟩ :=
      fun _ => ⟨fun _ h => (nomatch h), fun h => absurd rfl h.1⟩
    refine ⟨And.intro hcreate trivial, fun _ => ⟨?_, ?_⟩, trivial, ?_⟩
    · exact fun h => absurd h (by decide)
    · refine fun _ => ⟨EncounterState.noConfusion, fun id hid => ?_⟩
      obtain rfl : id = 0 := Nat.lt_one_iff.mp hid
      decide
    · split <;> trivial
  obtain ⟨t, t', ht, ht', -, -, hdone⟩ := progress_kept (justBosses 1)
    [.create, .setBossState ⟨0, .done, false⟩, .reload fun _ => false] hcareful
    [.create, .setBossState ⟨0, .done, false⟩] [.reload fun _ => false] (List.prefix_refl _)
  refine ⟨t', ht', hdone 0 Nat.zero_lt_one ?_⟩
  rw [← Except.ok.inj ht]
  decide

/-- **A boss that is done in silence is lost.** The headers are wrong, so that all states are left to be
decided; the first state of the second boss is not saved, and the string that the first one saves has it
as to be decided. A string without the headers is compared with what no one has written. -/
theorem done_in_silence_lost :
    (∃ t t', run (step (justBosses 2)) start
          [.load (some ['X']) fun _ => false, .setBossState ⟨0, .inProgress, false⟩,
            .setBossState ⟨0, .notStarted, false⟩, .setBossState ⟨1, .done, false⟩] = .ok t ∧
        t.script.stateOf 1 = .done ∧
        run (step (justBosses 2)) t [.reload fun _ => false] = .ok t' ∧
        t'.ready = true ∧ t'.script.stateOf 1 = .toBeDecided) ∧
      run (step (justBosses 2)) start [.load (some []) fun _ => false] = .error .uninitialized := by
  refine ⟨⟨_, _, rfl, ?_, rfl, rfl, ?_⟩, rfl⟩
  · decide
  · decide

end Life

end Sunstrider.InstanceScripts
