import Sunstrider.Instances.InstanceSaveMgr
import Sunstrider.Lib.Keyed

/-!
# The queue of resets at the start of the server

What `LoadResetTimes` leaves in the queue is read off its loops: the events of the instances whose reset
time is ahead, and for each map and difficulty with a period the event of its global reset, with those of
its instances. With it, `loadResetTimes_scheduled_iff` says for which tables everything is scheduled
that should be: an instance needs a reset time that is ahead, and of the query for respawns only the
first row counts.
-/

namespace Sunstrider.Instances

open Lib (multimapInsert_perm)

variable {st : Stores}

/-! ## What should be scheduled -/

/-- The event is of type 0, for that instance. -/
def isInstance (instanceId : ℕ) (e : ℕ × InstResetEvent) : Bool :=
  e.2.type == 0 && e.2.instanceId == instanceId

/-- The event is a warning or a reset without an instance, for that map and difficulty. -/
def isWarning (mapId difficulty : ℕ) (e : ℕ × InstResetEvent) : Bool :=
  e.2.type != 0 && e.2.instanceId == 0 && e.2.mapId == mapId && e.2.difficulty == difficulty

/-- The type is that of the first warning that is ahead, or of the reset. -/
structure FirstWarning (now t type : ℕ) : Prop where
  pos : 1 ≤ type
  le_four : type ≤ 4
  ahead : type < 4 → now < t - resetTimeDelay type
  first : ∀ type', 1 ≤ type' → type' < type → t - resetTimeDelay type' ≤ now

/-- The global reset of a map and a difficulty is known and has its event. -/
structure GlobalEvent (tables : ResetTables st) (now : ℕ) (m : Manager)
    (mapId difficulty period t type : ℕ) : Prop where
  time : m.resetTimeByMapDifficulty mapId difficulty = some t
  ahead : now ≤ t
  atHour : t % day = st.instanceResetTimeHour * hour % day
  periods : ∀ r ∈ tables.resets, (r.mapId, r.difficulty) = (mapId, difficulty) → r.resetTime < now →
    r.resetTime ≤ t ∧ period ∣ t - r.resetTime
  warning : FirstWarning now t type
  event : m.resetTimeQueue.filter (isWarning mapId difficulty) =
    [(t - resetTimeDelay type, ⟨type, mapId, difficulty, 0⟩)]

/-- **Every reset is scheduled.** -/
structure Scheduled (tables : ResetTables st) (now : ℕ) (m : Manager) : Prop where
  instances : ∀ r ∈ tables.instances, r.resetTime ≠ 0 → ∃ t,
    m.resetTimeQueue.filter (isInstance r.id) = [(t, ⟨0, r.mapId, r.difficulty, r.id⟩)] ∧
    ∀ row ∈ tables.respawns, row.instanceId = r.id → t = row.maxRespawnTime + 2 * hour
  globals : ∀ mapId difficulty resetTime, st.mapDifficulty mapId difficulty = some resetTime →
    resetTime ≠ 0 → ∃ t type, GlobalEvent tables now m mapId difficulty (st.period resetTime) t type

/-! ## When it is -/

/-- An instance without respawns has a reset time ahead, and one with respawns has them ahead, and is
that of the first row, unless its reset time fits them already. -/
structure ResetTables.InstanceInTime (tables : ResetTables st) (now : ℕ) (r : InstanceRow) : Prop where
  id_lt : r.id < 2 ^ 16
  plain : (∀ row ∈ tables.respawns, row.instanceId ≠ r.id) → now < r.resetTime
  respawns : ∀ row ∈ tables.respawns, row.instanceId = r.id →
    now < row.maxRespawnTime + 2 * hour ∧
    (tables.respawns.head? = some row ∨ r.resetTime = row.maxRespawnTime + 2 * hour)

/-- The periods that pass until the next reset are whole days. -/
structure ResetTables.GlobalInTime (tables : ResetTables st) (now mapId difficulty period : ℕ) :
    Prop where
  fresh : (∀ r ∈ tables.resets, (r.mapId, r.difficulty) ≠ (mapId, difficulty)) → day ∣ period
  zero : ∀ r ∈ tables.resets, (r.mapId, r.difficulty) = (mapId, difficulty) → r.resetTime = 0 →
    day ∣ period ∧ period ∣ now / day * day
  past : ∀ r ∈ tables.resets, (r.mapId, r.difficulty) = (mapId, difficulty) → r.resetTime ≠ 0 →
    r.resetTime < now → day ∣ ((now / day * day - r.resetTime / day * day) / period + 1) * period

/-- The tables give every reset its event. -/
structure ResetTables.InTime (tables : ResetTables st) (now : ℕ) : Prop where
  instances : ∀ r ∈ tables.instances, r.resetTime ≠ 0 → tables.InstanceInTime now r
  globals : ∀ mapId difficulty resetTime, st.mapDifficulty mapId difficulty = some resetTime →
    resetTime ≠ 0 → tables.GlobalInTime now mapId difficulty (st.period resetTime)

/-! ## Times -/

theorem firstWarning_firstType (now t : ℕ) : FirstWarning now t (firstType now t) := by
  have hcases : ∀ type', 1 ≤ type' → type' < 4 → type' = 1 ∨ type' = 2 ∨ type' = 3 := by omega
  rw [firstType]
  split
  next h => exact ⟨by omega, by omega, fun _ => h, fun type' hpos hlt => by omega⟩
  next h₁ =>
    split
    next h =>
      refine ⟨by omega, by omega, fun _ => h, fun type' hpos hlt => ?_⟩
      obtain rfl : type' = 1 := by omega
      exact Nat.le_of_not_lt h₁
    next h₂ =>
      split
      next h =>
        refine ⟨by omega, by omega, fun _ => h, fun type' hpos hlt => ?_⟩
        rcases hcases type' hpos (by omega) with rfl | rfl | rfl
        · exact Nat.le_of_not_lt h₁
        · exact Nat.le_of_not_lt h₂
        · omega
      next h₃ =>
        refine ⟨by omega, by omega, fun h => absurd h (by omega), fun type' hpos hlt => ?_⟩
        rcases hcases type' hpos (by omega) with rfl | rfl | rfl
        · exact Nat.le_of_not_lt h₁
        · exact Nat.le_of_not_lt h₂
        · exact Nat.le_of_not_lt h₃

theorem Stores.day_le_period (st : Stores) (resetTime : ℕ) : day ≤ st.period resetTime := by
  rw [Stores.period]
  split <;> omega

section Next

variable {now period t : ℕ}

theorem nextResetTime_zero (hperiod : day ≤ period) :
    st.nextResetTime now period 0 = now / day * day + period + st.instanceResetTimeHour * hour := by
  have hnot : ¬ now / day * day + period + st.instanceResetTimeHour * hour < now := by
    simp only [day] at hperiod ⊢
    omega
  rw [Stores.nextResetTime]
  simp only [if_true, if_neg hnot]

theorem nextResetTime_ahead (ht : t ≠ 0) (hahead : now ≤ t) : st.nextResetTime now period t = t := by
  rw [Stores.nextResetTime]
  simp only [if_neg ht, if_neg (Nat.not_lt.mpr hahead)]

theorem nextResetTime_past (ht : t ≠ 0) (hhour : t % day = st.instanceResetTimeHour * hour)
    (hpast : t < now) : st.nextResetTime now period t =
      t + ((now / day * day - t / day * day) / period + 1) * period := by
  have hsplit : t / day * day + t % day = t := Nat.div_add_mod' t day
  rw [Stores.nextResetTime]
  simp only [if_neg ht, if_pos hpast, ← hhour]
  rw [Nat.add_right_comm, hsplit]

theorem today_lt_periods (hperiod : day ≤ period) (t now : ℕ) : now / day * day <
    t / day * day + ((now / day * day - t / day * day) / period + 1) * period := by
  have hpos : 0 < period := lt_of_lt_of_le (by decide) hperiod
  have hlt := Nat.lt_mul_div_succ (now / day * day - t / day * day) hpos
  rw [Nat.mul_comm period] at hlt
  omega

end Next

/-! ## What the loops leave -/

namespace ResetTables

variable (tables : ResetTables st)

/-- The reset time of an instance, with its respawns where they are in the first row. -/
def dueTime (r : InstanceRow) : ℕ :=
  match tables.respawns with
  | [] => r.resetTime
  | row :: _ => if row.instanceId = r.id then row.maxRespawnTime + 2 * hour else r.resetTime

/-- The event of an instance, where its reset time is ahead. -/
def instanceEvents (now : ℕ) (r : InstanceRow) : List (ℕ × InstResetEvent) :=
  if now < tables.dueTime r then
    [(tables.dueTime r, .ofInstance r.mapId r.difficulty r.id)]
  else []

/-- The reset time of a map and a difficulty in the table, 0 where there is none. -/
def storedTime (mapId difficulty : ℕ) : ℕ :=
  match tables.resets.find? fun r => (r.mapId, r.difficulty) = (mapId, difficulty) with
  | none => 0
  | some r => r.resetTime

/-- The events of a global reset, from the reset time that is known. -/
def globalEvents (now : ℕ) (p : ℕ × ℕ) (known : ℕ) : List (ℕ × InstResetEvent) :=
  match st.mapDifficulty p.1 p.2 with
  | none => []
  | some resetTime =>
    if resetTime = 0 then []
    else
      let t := st.nextResetTime now (st.period resetTime) known
      (t - resetTimeDelay (firstType now t), ⟨firstType now t, p.1, p.2, 0⟩) ::
        (tables.resetInstances p.1 p.2).map fun id =>
          (t - resetTimeDelay (firstType now t), ⟨firstType now t, p.1, p.2, id % 2 ^ 16⟩)

theorem instResetTimes_eq : tables.instResetTimes =
    tables.normalInstances.map fun r => { r with resetTime := tables.dueTime r } := by
  unfold instResetTimes dueTime
  cases tables.respawns with
  | nil => exact (List.map_id' _).symm
  | cons row rows =>
    refine List.map_congr_left fun r _ => ?_
    by_cases hid : row.instanceId = r.id
    · by_cases htime : r.resetTime = row.maxRespawnTime + 2 * hour
      · simp [hid, ← htime]
      · simp [hid, htime]
    · simp [hid, Ne.symm hid]

end ResetTables

variable {p : ℕ × ℕ} {resetTime : ℕ}

namespace Manager

variable (tables : ResetTables st) (now : ℕ)

theorem scheduleReset_perm (m : Manager) (t : ℕ) (event : InstResetEvent) :
    (m.scheduleReset t event).resetTimeQueue.Perm (m.resetTimeQueue ++ [(t, event)]) := by
  have hinsert : (m.scheduleReset t event).resetTimeQueue.Perm ((t, event) :: m.resetTimeQueue) :=
    multimapInsert_perm m.resetTimeQueue (t, event)
  exact hinsert.trans (List.perm_append_singleton _ _).symm

theorem foldl_queue_perm {α : Type} {step : Manager → α → Manager}
    {events : α → List (ℕ × InstResetEvent)}
    (hstep : ∀ m a, (step m a).resetTimeQueue.Perm (m.resetTimeQueue ++ events a)) (l : List α)
    (m : Manager) : (l.foldl step m).resetTimeQueue.Perm (m.resetTimeQueue ++ l.flatMap events) := by
  induction l generalizing m with
  | nil => simp
  | cons a l ih =>
    rw [List.foldl_cons, List.flatMap_cons, ← List.append_assoc]
    exact (ih (step m a)).trans ((hstep m a).append_right _)

theorem foldl_times {α : Type} {step : Manager → α → Manager}
    (hstep : ∀ m a, (step m a).resetTimeByMapDifficulty = m.resetTimeByMapDifficulty) (l : List α)
    (m : Manager) : (l.foldl step m).resetTimeByMapDifficulty = m.resetTimeByMapDifficulty := by
  induction l generalizing m with
  | nil => rfl
  | cons a l ih => exact (ih (step m a)).trans (hstep m a)

section ScheduleReset

variable (t : ℕ) (event : ℕ → InstResetEvent) (ids : List ℕ) (m : Manager)

theorem foldl_scheduleReset_perm : (ids.foldl (fun m id => m.scheduleReset t (event id)) m).resetTimeQueue.Perm
    (m.resetTimeQueue ++ ids.map fun id => (t, event id)) := by
  rw [List.map_eq_flatMap]
  exact foldl_queue_perm (fun m id => scheduleReset_perm m t (event id)) ids m

theorem foldl_scheduleReset_times :
    (ids.foldl (fun m id => m.scheduleReset t (event id)) m).resetTimeByMapDifficulty =
      m.resetTimeByMapDifficulty := by
  refine foldl_times (fun m id => ?_) ids m
  rfl

end ScheduleReset

theorem scheduleInstance_perm (m : Manager) (r : InstanceRow) :
    (m.scheduleInstance now { r with resetTime := tables.dueTime r }).resetTimeQueue.Perm
      (m.resetTimeQueue ++ tables.instanceEvents now r) := by
  rw [scheduleInstance, ResetTables.instanceEvents]
  split
  · exact scheduleReset_perm _ _ _
  · simp

theorem scheduleInstance_times (m : Manager) (r : InstanceRow) :
    (m.scheduleInstance now r).resetTimeByMapDifficulty = m.resetTimeByMapDifficulty := by
  rw [scheduleInstance]
  split <;> rfl

theorem loadReset_queue (m : Manager) (r : ResetRow) :
    (m.loadReset st r).resetTimeQueue = m.resetTimeQueue := by
  rw [loadReset]
  split <;> rfl

/-- After the rows of `instance_reset`, each map and difficulty has the time in its row. -/
theorem foldl_loadReset {l : List ResetRow} (hkey : (l.map fun r => (r.mapId, r.difficulty)).Nodup)
    (hhour : ∀ r ∈ l, r.resetTime % day = st.instanceResetTimeHour * hour) (m : Manager)
    {mapId difficulty : ℕ} (hmap : (st.mapDifficulty mapId difficulty).isSome) :
    (l.foldl (loadReset st) m).resetTimeByMapDifficulty mapId difficulty =
      match l.find? fun r => (r.mapId, r.difficulty) = (mapId, difficulty) with
      | none => m.resetTimeByMapDifficulty mapId difficulty
      | some r => some r.resetTime := by
  induction l generalizing m with
  | nil => rfl
  | cons r l ih =>
    rw [List.map_cons, List.nodup_cons] at hkey
    have hrest := ih hkey.2 (fun r' hr' => hhour r' (List.mem_cons_of_mem _ hr')) (m.loadReset st r)
    rw [List.foldl_cons, hrest]
    by_cases hr : (r.mapId, r.difficulty) = (mapId, difficulty)
    · have hnone : (l.find? fun r => (r.mapId, r.difficulty) = (mapId, difficulty)) = none := by
        refine List.find?_eq_none.mpr fun r' hr' hkey' => hkey.1 ?_
        rw [hr, ← of_decide_eq_true hkey']
        exact List.mem_map_of_mem hr'
      obtain ⟨rfl, rfl⟩ := Prod.ext_iff.mp hr
      obtain ⟨resetTime, hresetTime⟩ := Option.isSome_iff_exists.mp hmap
      have htime : r.resetTime / day * day + st.instanceResetTimeHour * hour = r.resetTime := by
        rw [← hhour r List.mem_cons_self]
        exact Nat.div_add_mod' _ _
      rw [hnone, List.find?_cons_of_pos (by simp)]
      simp only [loadReset, hresetTime, initializeResetTimeFor, and_self, if_true, htime]
    · have hother : (m.loadReset st r).resetTimeByMapDifficulty mapId difficulty =
          m.resetTimeByMapDifficulty mapId difficulty := by
        rw [loadReset]
        split
        · rfl
        · refine if_neg fun h => hr ?_
          rw [h.1, h.2]
      rw [List.find?_cons_of_neg (by simpa using hr), hother]

theorem scheduleGlobal_perm (m : Manager) (p : ℕ × ℕ) :
    (m.scheduleGlobal tables now p).resetTimeQueue.Perm
      (m.resetTimeQueue ++ tables.globalEvents now p (m.getResetTimeFor p.1 p.2)) := by
  rw [scheduleGlobal, ResetTables.globalEvents]
  cases st.mapDifficulty p.1 p.2 with
  | none => simp
  | some resetTime =>
    by_cases hzero : resetTime = 0
    · simp [hzero]
    · simp only [if_neg hzero]
      generalize st.nextResetTime now (st.period resetTime) (m.getResetTimeFor p.1 p.2) = t
      rw [List.append_cons]
      exact (foldl_scheduleReset_perm _ _ _ _).trans ((scheduleReset_perm _ _ _).append_right _)

theorem scheduleGlobal_times (m : Manager) (p : ℕ × ℕ) (mapId difficulty : ℕ) :
    (m.scheduleGlobal tables now p).resetTimeByMapDifficulty mapId difficulty =
      match st.mapDifficulty p.1 p.2 with
      | none => m.resetTimeByMapDifficulty mapId difficulty
      | some resetTime =>
        if resetTime ≠ 0 ∧ (mapId, difficulty) = p then
          some (st.nextResetTime now (st.period resetTime) (m.getResetTimeFor p.1 p.2))
        else m.resetTimeByMapDifficulty mapId difficulty := by
  rw [scheduleGlobal]
  cases st.mapDifficulty p.1 p.2 with
  | none => rfl
  | some resetTime =>
    by_cases hzero : resetTime = 0
    · simp [hzero]
    · simp only [if_neg hzero]
      generalize st.nextResetTime now (st.period resetTime) (m.getResetTimeFor p.1 p.2) = t
      rw [foldl_scheduleReset_times]
      simp only [scheduleReset, initializeResetTimeFor, ne_eq, hzero, not_false_eq_true, true_and,
        Prod.ext_iff]

theorem scheduleGlobal_other (m : Manager) {p' : ℕ × ℕ} (hne : p' ≠ p) :
    (m.scheduleGlobal tables now p).resetTimeByMapDifficulty p'.1 p'.2 =
      m.resetTimeByMapDifficulty p'.1 p'.2 := by
  rw [scheduleGlobal_times]
  split
  · rfl
  · exact if_neg fun h => hne h.2

variable {l : List (ℕ × ℕ)}

/-- The last loop adds the events of each map and difficulty, from the reset time that was known before
the loop. -/
theorem foldl_scheduleGlobal_perm (hl : l.Nodup) (m : Manager) :
    (l.foldl (scheduleGlobal tables now) m).resetTimeQueue.Perm
      (m.resetTimeQueue ++ l.flatMap fun p => tables.globalEvents now p (m.getResetTimeFor p.1 p.2)) := by
  induction l generalizing m with
  | nil => simp
  | cons p l ih =>
    rw [List.nodup_cons] at hl
    have hknown : ∀ p' ∈ l, (m.scheduleGlobal tables now p).getResetTimeFor p'.1 p'.2 =
        m.getResetTimeFor p'.1 p'.2 := by
      intro p' hp'
      have hne : p' ≠ p := fun heq => hl.1 (heq ▸ hp')
      rw [getResetTimeFor, scheduleGlobal_other tables now m hne, getResetTimeFor]
    have hevents : (l.flatMap fun p' => tables.globalEvents now p'
          ((m.scheduleGlobal tables now p).getResetTimeFor p'.1 p'.2)) =
        l.flatMap fun p' => tables.globalEvents now p' (m.getResetTimeFor p'.1 p'.2) := by
      refine List.flatMap_congr fun p' hp' => ?_
      rw [hknown p' hp']
    have hrest := ih hl.2 (m.scheduleGlobal tables now p)
    rw [hevents] at hrest
    rw [List.foldl_cons, List.flatMap_cons, ← List.append_assoc]
    exact hrest.trans ((scheduleGlobal_perm tables now m p).append_right _)

theorem foldl_scheduleGlobal_other (m : Manager) (hp : p ∉ l) :
    (l.foldl (scheduleGlobal tables now) m).resetTimeByMapDifficulty p.1 p.2 =
      m.resetTimeByMapDifficulty p.1 p.2 := by
  induction l generalizing m with
  | nil => rfl
  | cons p' l ih =>
    rw [List.mem_cons, not_or] at hp
    rw [List.foldl_cons, ih _ hp.2]
    exact scheduleGlobal_other tables now m hp.1

theorem foldl_scheduleGlobal_times (hl : l.Nodup) (m : Manager) (hp : p ∈ l)
    (hmap : st.mapDifficulty p.1 p.2 = some resetTime) (hne : resetTime ≠ 0) :
    (l.foldl (scheduleGlobal tables now) m).resetTimeByMapDifficulty p.1 p.2 =
      some (st.nextResetTime now (st.period resetTime) (m.getResetTimeFor p.1 p.2)) := by
  induction l generalizing m with
  | nil => cases hp
  | cons p' l ih =>
    rw [List.nodup_cons] at hl
    rw [List.foldl_cons]
    rcases List.mem_cons.mp hp with rfl | hp
    · rw [foldl_scheduleGlobal_other tables now _ hl.1, scheduleGlobal_times, hmap]
      exact if_pos ⟨hne, rfl⟩
    · have hother := scheduleGlobal_other tables now m fun heq : p = p' => hl.1 (heq ▸ hp)
      rw [ih hl.2 _ hp, getResetTimeFor, hother, getResetTimeFor]

/-! ## What the function leaves -/

/-- The manager before the last loop. -/
def beforeGlobals : Manager :=
  tables.resets.foldl (loadReset st) (tables.instResetTimes.foldl (scheduleInstance now) empty)

theorem beforeGlobals_perm :
    (beforeGlobals tables now).resetTimeQueue.Perm
      (tables.normalInstances.flatMap (tables.instanceEvents now)) := by
  have hresets : ∀ (l : List ResetRow) (m : Manager),
      (l.foldl (loadReset st) m).resetTimeQueue = m.resetTimeQueue := by
    intro l
    induction l with
    | nil => exact fun _ => rfl
    | cons r l ih => exact fun m => (ih _).trans (loadReset_queue m r)
  rw [beforeGlobals, hresets, ResetTables.instResetTimes_eq, List.foldl_map]
  exact foldl_queue_perm (scheduleInstance_perm tables now) _ empty

theorem beforeGlobals_known {mapId difficulty : ℕ}
    (hmap : (st.mapDifficulty mapId difficulty).isSome) :
    (beforeGlobals tables now).getResetTimeFor mapId difficulty = tables.storedTime mapId difficulty := by
  have hempty := foldl_times (scheduleInstance_times now) tables.instResetTimes empty
  rw [getResetTimeFor, beforeGlobals, foldl_loadReset tables.resets_key tables.resets_hour _ hmap,
    hempty, ResetTables.storedTime]
  cases tables.resets.find? fun r => (r.mapId, r.difficulty) = (mapId, difficulty) with
  | none => rfl
  | some r => rfl

/-- **The queue after the start.** The events of the instances, and those of each map and difficulty. -/
theorem loadResetTimes_perm :
    (loadResetTimes tables now).resetTimeQueue.Perm
      (tables.normalInstances.flatMap (tables.instanceEvents now) ++
        tables.mapDifficulties.flatMap fun p =>
          tables.globalEvents now p (tables.storedTime p.1 p.2)) := by
  have hevents : (tables.mapDifficulties.flatMap fun p => tables.globalEvents now p
        ((beforeGlobals tables now).getResetTimeFor p.1 p.2)) =
      tables.mapDifficulties.flatMap fun p =>
        tables.globalEvents now p (tables.storedTime p.1 p.2) := by
    refine List.flatMap_congr fun p hp => ?_
    rw [beforeGlobals_known tables now ((tables.mem_mapDifficulties p).mp hp)]
  have hloop := foldl_scheduleGlobal_perm tables now tables.mapDifficulties_key
    (beforeGlobals tables now)
  rw [hevents] at hloop
  exact hloop.trans ((beforeGlobals_perm tables now).append_right _)

/-- **The reset times after the start.** -/
theorem loadResetTimes_times {mapId difficulty : ℕ}
    (hmap : st.mapDifficulty mapId difficulty = some resetTime) (hne : resetTime ≠ 0) :
    (loadResetTimes tables now).resetTimeByMapDifficulty mapId difficulty =
      some (st.nextResetTime now (st.period resetTime) (tables.storedTime mapId difficulty)) := by
  have hsome : (st.mapDifficulty mapId difficulty).isSome := by rw [hmap, Option.isSome_some]
  have hmem := (tables.mem_mapDifficulties (mapId, difficulty)).mpr hsome
  rw [← beforeGlobals_known tables now hsome]
  exact foldl_scheduleGlobal_times tables now tables.mapDifficulties_key
    (beforeGlobals tables now) hmem hmap hne

end Manager

namespace ResetTables

variable (tables : ResetTables st) {now : ℕ}

theorem normalInstances_nodup : tables.normalInstances.Nodup := by
  refine List.Nodup.filter _ ?_
  exact tables.instances_sorted.imp fun hlt heq => Nat.ne_of_lt hlt (congrArg InstanceRow.id heq)

variable {r : InstanceRow}

theorem eq_of_id {r' : InstanceRow} (hr : r ∈ tables.instances) (hr' : r' ∈ tables.instances)
    (h : r.id = r'.id) : r = r' := by
  refine Lib.eq_of_key ?_ hr hr' h
  refine List.pairwise_map.mpr ?_
  exact tables.instances_sorted.imp fun hlt heq => Nat.ne_of_lt hlt heq

theorem mem_normalInstances :
    r ∈ tables.normalInstances ↔ r ∈ tables.instances ∧ r.resetTime ≠ 0 := by
  simp [normalInstances]

variable {t : ℕ}

theorem globalEvents_eq (hmap : st.mapDifficulty p.1 p.2 = some resetTime) (hne : resetTime ≠ 0)
    (known : ℕ) (ht : st.nextResetTime now (st.period resetTime) known = t) :
    tables.globalEvents now p known =
      (t - resetTimeDelay (firstType now t), ⟨firstType now t, p.1, p.2, 0⟩) ::
        (tables.resetInstances p.1 p.2).map fun id =>
          (t - resetTimeDelay (firstType now t), ⟨firstType now t, p.1, p.2, id % 2 ^ 16⟩) := by
  rw [globalEvents, hmap]
  simp only [if_neg hne, ht]

variable {e : ℕ × InstResetEvent}

/-- The events of a global reset are for that map and difficulty, and not of type 0. -/
theorem mem_globalEvents {known : ℕ} (he : e ∈ tables.globalEvents now p known) :
    e.2.type ≠ 0 ∧ e.2.mapId = p.1 ∧ e.2.difficulty = p.2 := by
  cases hmap : st.mapDifficulty p.1 p.2 with
  | none => simp [globalEvents, hmap] at he
  | some resetTime =>
    by_cases hzero : resetTime = 0
    · simp [globalEvents, hmap, hzero] at he
    · rw [tables.globalEvents_eq hmap hzero known rfl] at he
      generalize st.nextResetTime now (st.period resetTime) known = t at he
      have hpos := (firstWarning_firstType now t).pos
      generalize firstType now t = type at he hpos
      rcases List.mem_cons.mp he with rfl | he
      · exact ⟨Nat.ne_of_gt hpos, rfl, rfl⟩
      · obtain ⟨id, -, rfl⟩ := List.mem_map.mp he
        exact ⟨Nat.ne_of_gt hpos, rfl, rfl⟩

theorem mem_instanceEvents :
    e ∈ tables.instanceEvents now r ↔ now < tables.dueTime r ∧
      e = (tables.dueTime r, .ofInstance r.mapId r.difficulty r.id) := by
  rw [instanceEvents]
  split
  next h => rw [List.mem_singleton, and_iff_right h]
  next h => simp only [List.not_mem_nil, h, false_and]

/-- No instance has an id that its event cannot hold. -/
def IdsFit : Prop := ∀ r ∈ tables.normalInstances, r.id < 2 ^ 16

theorem mem_of_resetInstances {mapId difficulty id : ℕ}
    (h : id ∈ tables.resetInstances mapId difficulty) : ∃ r ∈ tables.normalInstances, r.id = id := by
  obtain ⟨r, hr, hid⟩ := List.mem_map.mp h
  exact ⟨r, List.mem_of_mem_filter hr, hid⟩

/-- The events of an instance, among those of all. -/
theorem filter_isInstance (hfit : tables.IdsFit) (hr : r ∈ tables.normalInstances) :
    ((Manager.loadResetTimes tables now).resetTimeQueue.filter (isInstance r.id)).Perm
      (tables.instanceEvents now r) := by
  have hown : ∀ r' ∈ tables.normalInstances, ∀ e ∈ tables.instanceEvents now r',
      (isInstance r.id e = true ↔ r' = r) := by
    intro r' hr' e he
    obtain ⟨-, rfl⟩ := tables.mem_instanceEvents.mp he
    simp only [isInstance, InstResetEvent.ofInstance, Nat.mod_eq_of_lt (hfit r' hr'), beq_self_eq_true,
      Bool.true_and, beq_iff_eq]
    refine ⟨fun hid => ?_, fun heq => congrArg InstanceRow.id heq⟩
    exact tables.eq_of_id (tables.mem_normalInstances.mp hr').1 (tables.mem_normalInstances.mp hr).1 hid
  have hinstances : (tables.normalInstances.flatMap (tables.instanceEvents now)).filter
      (isInstance r.id) = tables.instanceEvents now r := by
    rw [List.filter_flatMap, Lib.flatMap_of_unique tables.normalInstances_nodup hr]
    · refine List.filter_eq_self.mpr fun e he => ?_
      exact (hown r hr e he).mpr rfl
    · intro r' hr' hne
      exact List.filter_eq_nil_iff.mpr fun e he hin => hne ((hown r' hr' e he).mp hin)
  have hglobals : (tables.mapDifficulties.flatMap fun p => tables.globalEvents now p
      (tables.storedTime p.1 p.2)).filter (isInstance r.id) = [] := by
    refine List.filter_eq_nil_iff.mpr fun e he hin => ?_
    obtain ⟨p, -, he⟩ := List.mem_flatMap.mp he
    have htype := (tables.mem_globalEvents he).1
    simp [isInstance, htype] at hin
  have hperm := (Manager.loadResetTimes_perm tables now).filter (isInstance r.id)
  rwa [List.filter_append, hinstances, hglobals, List.append_nil] at hperm

theorem filter_isWarning (hfit : tables.IdsFit) {mapId difficulty : ℕ}
    (hmap : st.mapDifficulty mapId difficulty = some resetTime) (hne : resetTime ≠ 0)
    (ht : st.nextResetTime now (st.period resetTime) (tables.storedTime mapId difficulty) = t) :
    (Manager.loadResetTimes tables now).resetTimeQueue.filter (isWarning mapId difficulty) =
      [(t - resetTimeDelay (firstType now t), ⟨firstType now t, mapId, difficulty, 0⟩)] := by
  have hmem := (tables.mem_mapDifficulties (mapId, difficulty)).mpr (by rw [hmap, Option.isSome_some])
  have hinstances : (tables.normalInstances.flatMap (tables.instanceEvents now)).filter
      (isWarning mapId difficulty) = [] := by
    refine List.filter_eq_nil_iff.mpr fun e he hin => ?_
    obtain ⟨r, -, he⟩ := List.mem_flatMap.mp he
    obtain ⟨-, rfl⟩ := tables.mem_instanceEvents.mp he
    simp [isWarning, InstResetEvent.ofInstance] at hin
  have hothers : ∀ p ∈ tables.mapDifficulties, p ≠ (mapId, difficulty) →
      (tables.globalEvents now p (tables.storedTime p.1 p.2)).filter (isWarning mapId difficulty) =
        [] := by
    intro p hp hpair
    refine List.filter_eq_nil_iff.mpr fun e he hin => hpair ?_
    obtain ⟨-, hmapId, hdifficulty⟩ := tables.mem_globalEvents he
    simp only [isWarning, Bool.and_eq_true, beq_iff_eq] at hin
    exact Prod.ext (hmapId.symm.trans hin.1.2) (hdifficulty.symm.trans hin.2)
  have hpos := (firstWarning_firstType now t).pos
  have hids : ((tables.resetInstances mapId difficulty).map fun id => ((t - resetTimeDelay (firstType now t),
      ⟨firstType now t, mapId, difficulty, id % 2 ^ 16⟩) : ℕ × InstResetEvent)).filter
        (isWarning mapId difficulty) = [] := by
    refine List.filter_eq_nil_iff.mpr fun e he hin => ?_
    obtain ⟨id, hid, rfl⟩ := List.mem_map.mp he
    obtain ⟨r, hr, rfl⟩ := tables.mem_of_resetInstances hid
    have hidpos := tables.instances_pos r (tables.mem_normalInstances.mp hr).1
    simp only [isWarning, Nat.mod_eq_of_lt (hfit r hr), Bool.and_eq_true, beq_iff_eq] at hin
    omega
  have hperm := (Manager.loadResetTimes_perm tables now).filter (isWarning mapId difficulty)
  rw [List.filter_append, hinstances, List.nil_append, List.filter_flatMap,
    Lib.flatMap_of_unique tables.mapDifficulties_key hmem hothers,
    tables.globalEvents_eq hmap hne _ ht, List.filter_cons_of_pos, hids] at hperm
  · exact List.perm_singleton.mp hperm
  · simp [isWarning]
    omega

/-! ## When everything is scheduled -/

theorem dueTime_of_none (h : ∀ row ∈ tables.respawns, row.instanceId ≠ r.id) :
    tables.dueTime r = r.resetTime := by
  unfold dueTime
  split
  · rfl
  · next row rows hrows => exact if_neg (h row (hrows ▸ List.mem_cons_self))

theorem dueTime_of_mem {row : RespawnRow} (hrow : row ∈ tables.respawns)
    (hid : row.instanceId = r.id) : tables.dueTime r = row.maxRespawnTime + 2 * hour ↔
      tables.respawns.head? = some row ∨ r.resetTime = row.maxRespawnTime + 2 * hour := by
  have hkey := tables.respawns_key
  unfold dueTime
  cases hrows : tables.respawns with
  | nil => rw [hrows] at hrow; cases hrow
  | cons row' rows =>
    rw [List.head?_cons, Option.some_inj]
    by_cases hid' : row'.instanceId = r.id
    · obtain rfl := Lib.eq_of_key hkey (hrows ▸ List.mem_cons_self) hrow (hid'.trans hid.symm)
      simp [hid]
    · have hne : row' ≠ row := fun heq => hid' (heq ▸ hid)
      simp [hid', hne]

theorem instanceInTime_iff : tables.InstanceInTime now r ↔
    r.id < 2 ^ 16 ∧ now < tables.dueTime r ∧ ∀ row ∈ tables.respawns, row.instanceId = r.id →
      tables.dueTime r = row.maxRespawnTime + 2 * hour := by
  constructor
  · intro h
    refine ⟨h.id_lt, ?_, fun row hrow hid => ?_⟩
    · by_cases hnone : ∀ row ∈ tables.respawns, row.instanceId ≠ r.id
      · rw [tables.dueTime_of_none hnone]
        exact h.plain hnone
      · push Not at hnone
        obtain ⟨row, hrow, hid⟩ := hnone
        obtain ⟨hahead, hfirst⟩ := h.respawns row hrow hid
        rwa [(tables.dueTime_of_mem hrow hid).mpr hfirst]
    · exact (tables.dueTime_of_mem hrow hid).mpr (h.respawns row hrow hid).2
  · rintro ⟨hfit, hahead, hdue⟩
    refine ⟨hfit, fun hnone => ?_, fun row hrow hid => ?_⟩
    · rwa [tables.dueTime_of_none hnone] at hahead
    · have htime := hdue row hrow hid
      rw [htime] at hahead
      exact ⟨hahead, (tables.dueTime_of_mem hrow hid).mp htime⟩

/-- An event for an instance is its own, where the ids fit, and without that the id of the instance
fits. -/
theorem instance_of_mem {id : ℕ}
    (he : e ∈ (Manager.loadResetTimes tables now).resetTimeQueue.filter (isInstance id)) :
    ∃ r ∈ tables.normalInstances, r.id % 2 ^ 16 = id ∧ now < tables.dueTime r ∧
      e.1 = tables.dueTime r := by
  obtain ⟨hqueue, hid⟩ := List.mem_filter.mp he
  rw [isInstance, Bool.and_eq_true, beq_iff_eq, beq_iff_eq] at hid
  rcases List.mem_append.mp ((Manager.loadResetTimes_perm tables now).mem_iff.mp hqueue) with he | he
  · obtain ⟨r, hr, he⟩ := List.mem_flatMap.mp he
    obtain ⟨hahead, rfl⟩ := tables.mem_instanceEvents.mp he
    exact ⟨r, hr, hid.2, hahead, rfl⟩
  · obtain ⟨p, -, he⟩ := List.mem_flatMap.mp he
    exact absurd hid.1 (tables.mem_globalEvents he).1

variable {mapId difficulty period : ℕ}

/-- A time that is `d` after a whole day and an hour is at that hour when `d` is whole days. -/
theorem mod_day_iff (a b d : ℕ) : (a * day + d + b) % day = b % day ↔ day ∣ d := by
  simp only [day]
  omega

theorem stored_cases (mapId difficulty : ℕ) :
    (tables.storedTime mapId difficulty = 0 ∧
      ∀ r ∈ tables.resets, (r.mapId, r.difficulty) ≠ (mapId, difficulty)) ∨
    ∃ r ∈ tables.resets, tables.storedTime mapId difficulty = r.resetTime ∧
      ∀ r' ∈ tables.resets, (r'.mapId, r'.difficulty) = (mapId, difficulty) ↔ r' = r := by
  unfold storedTime
  cases hfind : tables.resets.find? fun r => (r.mapId, r.difficulty) = (mapId, difficulty) with
  | none =>
    refine .inl ⟨rfl, fun r hr heq => ?_⟩
    exact List.find?_eq_none.mp hfind r hr (decide_eq_true heq)
  | some r =>
    obtain ⟨hmem, hkey⟩ := Lib.find_spec hfind
    refine .inr ⟨r, hmem, rfl, fun r' hr' => ⟨fun heq => ?_, fun heq => heq ▸ hkey⟩⟩
    exact Lib.eq_of_key tables.resets_key hr' hmem (heq.trans hkey.symm)

theorem firstTime_spec (hperiod : day ≤ period) (ht : st.nextResetTime now period 0 = t) :
    now ≤ t ∧ (t % day = st.instanceResetTimeHour * hour % day ↔ day ∣ period) := by
  rw [nextResetTime_zero hperiod] at ht
  refine ⟨?_, ?_⟩
  · simp only [day] at hperiod ht
    omega
  · rw [← ht]
    exact mod_day_iff (now / day) (st.instanceResetTimeHour * hour) period

/-- A reset time that is past is moved by periods, to a time ahead where these are whole days. -/
theorem movedTime_spec (hperiod : day ≤ period) {steps : ℕ} (hzero : resetTime ≠ 0)
    (hat : resetTime % day = st.instanceResetTimeHour * hour) (hpast : resetTime < now)
    (hsteps : ((now / day * day - resetTime / day * day) / period + 1) * period = steps)
    (ht : st.nextResetTime now period resetTime = t) :
    (day ∣ steps → now ≤ t) ∧ (t % day = st.instanceResetTimeHour * hour % day ↔ day ∣ steps) ∧
      resetTime ≤ t ∧ period ∣ t - resetTime := by
  have hlater := today_lt_periods hperiod resetTime now
  have hdvd : period ∣ steps := hsteps ▸ Nat.dvd_mul_left _ _
  rw [nextResetTime_past hzero hat hpast, hsteps] at ht
  rw [hsteps] at hlater
  refine ⟨fun hwhole => ?_, ?_, ?_, ?_⟩
  · simp only [day] at hwhole hlater
    omega
  · rw [← mod_day_iff (resetTime / day) (st.instanceResetTimeHour * hour) steps, ← hat,
      Nat.add_right_comm, Nat.div_add_mod', ht]
  · rw [← ht]
    exact Nat.le_add_right _ _
  · rwa [← ht, Nat.add_sub_cancel_left]

theorem globalInTime_of_row {r : ResetRow} (hr : r ∈ tables.resets)
    (honly : ∀ r' ∈ tables.resets, (r'.mapId, r'.difficulty) = (mapId, difficulty) ↔ r' = r) :
    tables.GlobalInTime now mapId difficulty period ↔
      (r.resetTime = 0 → day ∣ period ∧ period ∣ now / day * day) ∧
      (r.resetTime ≠ 0 → r.resetTime < now →
        day ∣ ((now / day * day - r.resetTime / day * day) / period + 1) * period) := by
  have hown := (honly r hr).mpr rfl
  constructor
  · intro h
    exact ⟨h.zero r hr hown, h.past r hr hown⟩
  · rintro ⟨hzero, hpast⟩
    refine ⟨fun hnone => absurd hown (hnone r hr), fun r' hr' hpair => ?_, fun r' hr' hpair => ?_⟩
    · rw [(honly r' hr').mp hpair]
      exact hzero
    · rw [(honly r' hr').mp hpair]
      exact hpast

/-- **The next reset time.** It is at the hour and not past when the periods until it are whole days. -/
theorem globalInTime_iff (hperiod : day ≤ period)
    (ht : st.nextResetTime now period (tables.storedTime mapId difficulty) = t) :
    tables.GlobalInTime now mapId difficulty period ↔
      now ≤ t ∧ t % day = st.instanceResetTimeHour * hour % day ∧
      ∀ r ∈ tables.resets, (r.mapId, r.difficulty) = (mapId, difficulty) → r.resetTime < now →
        r.resetTime ≤ t ∧ period ∣ t - r.resetTime := by
  rcases tables.stored_cases mapId difficulty with ⟨hstored, hnone⟩ | ⟨r, hr, hstored, honly⟩
  · rw [hstored] at ht
    obtain ⟨hahead, hclock⟩ := firstTime_spec hperiod ht
    constructor
    · intro h
      exact ⟨hahead, hclock.mpr (h.fresh hnone), fun r hr hpair => absurd hpair (hnone r hr)⟩
    · rintro ⟨-, hat, -⟩
      refine ⟨fun _ => hclock.mp hat, fun r hr hpair => ?_, fun r hr hpair => ?_⟩
      · exact absurd hpair (hnone r hr)
      · exact absurd hpair (hnone r hr)
  · have hrows : (∀ r' ∈ tables.resets, (r'.mapId, r'.difficulty) = (mapId, difficulty) →
          r'.resetTime < now → r'.resetTime ≤ t ∧ period ∣ t - r'.resetTime) ↔
        (r.resetTime < now → r.resetTime ≤ t ∧ period ∣ t - r.resetTime) := by
      refine ⟨fun h => h r hr ((honly r hr).mpr rfl), fun h r' hr' hpair => ?_⟩
      rw [(honly r' hr').mp hpair]
      exact h
    rw [tables.globalInTime_of_row hr honly, hrows]
    have hat := tables.resets_hour r hr
    rw [hstored] at ht
    generalize r.resetTime = resetTime at hat ht ⊢
    by_cases hzero : resetTime = 0
    · subst hzero
      obtain ⟨hahead, hclock⟩ := firstTime_spec hperiod ht
      have hdvd : period ∣ t ↔ period ∣ now / day * day := by
        rw [nextResetTime_zero hperiod, ← hat] at ht
        rw [← ht, Nat.zero_mod, Nat.add_zero, Nat.dvd_add_self_right]
      have htoday : period ∣ now / day * day ↔ (0 < now → period ∣ t) := by
        rcases Nat.eq_zero_or_pos now with rfl | hpos
        · simp
        · rw [hdvd, forall_prop_of_true hpos]
      simp [hahead, hclock, htoday]
    · by_cases hpast : resetTime < now
      · obtain ⟨hahead, hclock, hle, hdvd⟩ := movedTime_spec hperiod hzero hat hpast rfl ht
        rw [hclock]
        constructor
        · rintro ⟨-, hwhole⟩
          exact ⟨hahead (hwhole hzero hpast), hwhole hzero hpast, fun _ => ⟨hle, hdvd⟩⟩
        · rintro ⟨-, hwhole, -⟩
          exact ⟨fun h => absurd h hzero, fun _ _ => hwhole⟩
      · rw [nextResetTime_ahead hzero (Nat.le_of_not_lt hpast)] at ht
        have hclock : t % day = st.instanceResetTimeHour * hour % day := by
          rw [← ht, ← hat, Nat.mod_mod]
        constructor
        · intro _
          exact ⟨ht ▸ Nat.le_of_not_lt hpast, hclock, fun hlt => absurd hlt hpast⟩
        · intro _
          exact ⟨fun h => absurd h hzero, fun _ hlt => absurd hlt hpast⟩

end ResetTables

/-- **The start of the server schedules every reset** exactly when each instance has a reset time ahead,
that no row of the query but the first has to give, and the periods of global resets add up to whole
days. -/
theorem loadResetTimes_scheduled_iff (tables : ResetTables st) (now : ℕ) :
    Scheduled tables now (Manager.loadResetTimes tables now) ↔ tables.InTime now := by
  constructor
  · intro h
    have hfit : tables.IdsFit := by
      intro r hr
      obtain ⟨t, hevent, -⟩ := h.instances r (tables.mem_normalInstances.mp hr).1
        (tables.mem_normalInstances.mp hr).2
      obtain ⟨r', -, hid, -⟩ := tables.instance_of_mem (hevent ▸ List.mem_singleton_self _)
      exact hid ▸ Nat.mod_lt _ (by decide)
    refine ⟨fun r hr hne => ?_, fun mapId difficulty resetTime hmap hne => ?_⟩
    · have hnormal := tables.mem_normalInstances.mpr ⟨hr, hne⟩
      obtain ⟨t, hevent, hrespawns⟩ := h.instances r hr hne
      obtain ⟨r', hr', hid, hahead, htime⟩ := tables.instance_of_mem (hevent ▸ List.mem_singleton_self _)
      rw [Nat.mod_eq_of_lt (hfit r' hr')] at hid
      obtain rfl := tables.eq_of_id (tables.mem_normalInstances.mp hr').1 hr hid
      refine tables.instanceInTime_iff.mpr ⟨hfit r' hr', hahead, fun row hrow hrowId => ?_⟩
      exact htime.symm.trans (hrespawns row hrow hrowId)
    · obtain ⟨t, type, hglobal⟩ := h.globals mapId difficulty resetTime hmap hne
      have htime := hglobal.time
      rw [Manager.loadResetTimes_times tables now hmap hne, Option.some_inj] at htime
      exact (tables.globalInTime_iff (st.day_le_period _) htime).mpr
        ⟨hglobal.ahead, hglobal.atHour, hglobal.periods⟩
  · intro h
    have hfit : tables.IdsFit := by
      intro r hr
      obtain ⟨hmem, hne⟩ := tables.mem_normalInstances.mp hr
      exact (h.instances r hmem hne).id_lt
    refine ⟨fun r hr hne => ?_, fun mapId difficulty resetTime hmap hne => ?_⟩
    · obtain ⟨hid, hahead, hdue⟩ := tables.instanceInTime_iff.mp (h.instances r hr hne)
      have hfilter : List.Perm _ (tables.instanceEvents now r) :=
        tables.filter_isInstance hfit (tables.mem_normalInstances.mpr ⟨hr, hne⟩)
      rw [ResetTables.instanceEvents, if_pos hahead, InstResetEvent.ofInstance,
        Nat.mod_eq_of_lt hid] at hfilter
      exact ⟨tables.dueTime r, List.perm_singleton.mp hfilter, hdue⟩
    · obtain ⟨hahead, hclock, hperiods⟩ := (tables.globalInTime_iff (st.day_le_period _) rfl).mp
        (h.globals mapId difficulty resetTime hmap hne)
      exact ⟨_, _, Manager.loadResetTimes_times tables now hmap hne, hahead, hclock, hperiods,
        firstWarning_firstType now _, tables.filter_isWarning hfit hmap hne rfl⟩

/-- Settings with a reset at four, and no global resets. -/
def plainStores : Stores := ⟨fun _ => true, fun _ _ => none, id, 4, fun _ _ => false⟩

/-- Two instances of a map, both with respawns behind their reset times. -/
def twoInstances : ResetTables plainStores where
  instances := [⟨1, 36, 0, 550000⟩, ⟨2, 36, 0, 550000⟩]
  respawns := [⟨600000, 1⟩, ⟨600000, 2⟩]
  resets := []
  mapDifficulties := []
  instances_sorted := by decide
  instances_pos := by decide
  respawns_key := by decide
  resets_key := by decide
  resets_hour := by decide
  mapDifficulties_key := by decide
  mem_mapDifficulties p := by simp [plainStores]

/-- The second instance has respawns until 600000, and is reset before: only the first row of the query is
read. -/
theorem secondInstance_not_scheduled :
    ¬ Scheduled twoInstances 500000 (Manager.loadResetTimes twoInstances 500000) := by
  intro h
  obtain ⟨t, hevent, hrespawns⟩ := h.instances ⟨2, 36, 0, 550000⟩ (by decide) (by decide)
  have hearly : (Manager.loadResetTimes twoInstances 500000).resetTimeQueue.filter (isInstance 2) =
      [(550000, ⟨0, 36, 0, 2⟩)] := by decide
  rw [hearly, hrespawns ⟨600000, 2⟩ (by decide) rfl] at hevent
  cases hevent

end Sunstrider.Instances
