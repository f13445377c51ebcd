import Sunstrider.Laws.Instances.GlobalReset

/-!
# Resets and the queue

What `_ResetSave` and the loop of a global reset leave alone: the queue, and the reset times. So a reset
of one instance changes neither, and a global reset moves one reset time and adds one event. What the
queue holds between them is the second part.
-/

namespace Sunstrider.Instances

open Lib (Yields Answers)

namespace Manager

variable {st : Stores} {m m' : Manager}

/-- The queue and the reset times are as before. -/
structure SameQueue (m m' : Manager) : Prop where
  queue : m'.resetTimeQueue = m.resetTimeQueue
  times : m'.resetTimeByMapDifficulty = m.resetTimeByMapDifficulty

theorem SameQueue.refl (m : Manager) : SameQueue m m := ⟨rfl, rfl⟩

theorem SameQueue.trans {m₁ m₂ m₃ : Manager} (h : SameQueue m₁ m₂) (h' : SameQueue m₂ m₃) :
    SameQueue m₁ m₃ := ⟨h'.queue.trans h.queue, h'.times.trans h.times⟩

/-- A computation that leaves the queue and the reset times alone. -/
def KeepsQueue (m : Manager) (x : Except Fault Manager) : Prop := Answers x (SameQueue m)

theorem keepsQueue_ok (m : Manager) : KeepsQueue m (.ok m) := .ok (.refl m)

theorem KeepsQueue.of_same {m₁ : Manager} (h : SameQueue m m₁) {x : Except Fault Manager}
    (hx : KeepsQueue m₁ x) : KeepsQueue m x := fun m₂ h₂ => h.trans (hx m₂ h₂)

theorem KeepsQueue.bind {x : Except Fault Manager} {f : Manager → Except Fault Manager}
    (hx : KeepsQueue m x) (hf : ∀ m₁, KeepsQueue m₁ (f m₁)) : KeepsQueue m (x >>= f) :=
  Answers.bind hx fun m₁ h₁ => KeepsQueue.of_same h₁ (hf m₁)

theorem KeepsQueue.deref {a : ℕ} {f : InstanceSave → Except Fault Manager}
    (hf : ∀ save, KeepsQueue m (f save)) : KeepsQueue m (m.derefSave a >>= f) :=
  Answers.bind (P := fun _ => True) (fun _ _ => trivial) fun save _ => hf save

theorem sameQueue_editSave (m : Manager) (a : ℕ) (f : InstanceSave → InstanceSave) :
    SameQueue m (m.editSave a f) := ⟨rfl, rfl⟩

theorem sameQueue_removeInstanceSave (m : Manager) (instanceId : ℕ) :
    SameQueue m (m.removeInstanceSave instanceId) := by
  rw [removeInstanceSave]
  split <;> exact ⟨rfl, rfl⟩

theorem keepsQueue_deleteSave (m : Manager) (a : ℕ) : KeepsQueue m (m.deleteSave a) := by
  refine .deref fun save => ?_
  split
  · exact .ok ⟨rfl, rfl⟩
  · exact .error

theorem keepsQueue_unloadIfEmpty (m : Manager) (a : ℕ) : KeepsQueue m (m.unloadIfEmpty st a) := by
  refine .deref fun save => ?_
  split
  · exact .ok (m.sameQueue_removeInstanceSave _)
  · exact keepsQueue_ok m

theorem keepsQueue_unloadRemoved (m : Manager) (a : ℕ) : KeepsQueue m (m.unloadRemoved st a) := by
  refine (m.keepsQueue_unloadIfEmpty a).bind fun m₁ => .deref fun save => ?_
  split
  · exact m₁.keepsQueue_deleteSave a
  · exact keepsQueue_ok m₁

theorem keepsQueue_unbindPlayer (m : Manager) (player mapId difficulty : ℕ) :
    KeepsQueue m (m.unbindPlayer st player mapId difficulty) := by
  rw [Manager.unbindPlayer]
  split
  · exact keepsQueue_ok m
  · next bind _ =>
    refine KeepsQueue.bind (.deref fun save => ?_) fun m₁ => .ok ⟨rfl, rfl⟩
    exact .of_same (m.sameQueue_editSave _ _) (keepsQueue_unloadRemoved _ _)

theorem keepsQueue_unbindGroup (m : Manager) (group mapId difficulty : ℕ) :
    KeepsQueue m (m.unbindGroup st group mapId difficulty) := by
  rw [Manager.unbindGroup]
  split
  · exact keepsQueue_ok m
  · next bind _ =>
    refine KeepsQueue.bind (.deref fun save => ?_) fun m₁ => .ok ⟨rfl, rfl⟩
    exact .of_same (m.sameQueue_editSave _ _) (keepsQueue_unloadRemoved _ _)

theorem keepsQueue_unbindGroups (a mapId difficulty fuel : ℕ) (m : Manager) :
    KeepsQueue m (unbindGroups st a mapId difficulty fuel m) := by
  induction fuel generalizing m with
  | zero =>
    refine .deref fun save => ?_
    split
    · exact keepsQueue_ok m
    · exact .error
  | succ fuel ih =>
    refine .deref fun save => ?_
    split
    · exact keepsQueue_ok m
    · next group _ _ => exact (m.keepsQueue_unbindGroup group mapId difficulty).bind ih

theorem answers_resetSave (m : Manager) (itr : ℕ) :
    Answers (m.resetSave st itr) fun e => SameQueue m e.1 := by
  rw [resetSave]
  split
  · exact .error
  · next a _ =>
    refine Answers.bind (P := fun _ => True) (fun _ _ => trivial) fun save _ => ?_
    refine Answers.bind (P := fun _ => True) (fun _ _ => trivial) fun e _ => ?_
    obtain ⟨temp, shouldDelete⟩ := e
    have hlock : SameQueue m { m with lockInstLists := true } := ⟨rfl, rfl⟩
    have hplayers : KeepsQueue m (temp.foldlM
        (fun m player => m.unbindPlayer st player save.mapId save.difficulty)
        { m with lockInstLists := true }) :=
      Answers.foldlM temp hlock fun m₁ player _ h₁ =>
        KeepsQueue.of_same h₁ (m₁.keepsQueue_unbindPlayer player _ _)
    refine Answers.bind hplayers fun m₁ h₁ => ?_
    have hgroups : KeepsQueue m
        (unbindGroups st a save.mapId save.difficulty save.groupList.length m₁) :=
      .of_same h₁ (keepsQueue_unbindGroups a save.mapId save.difficulty _ m₁)
    refine Answers.bind hgroups fun m₂ h₂ => ?_
    split
    · have hdelete : KeepsQueue m (m₂.deleteSave a) := .of_same h₂ (m₂.keepsQueue_deleteSave a)
      exact Answers.bind hdelete fun m₃ h₃ => .ok ⟨h₃.queue, h₃.times⟩
    · exact .ok ⟨h₂.queue, h₂.times⟩

theorem keepsQueue_resetAll (mapId difficulty fuel : ℕ) (m : Manager) (itr : ℕ) :
    KeepsQueue m (resetAll st mapId difficulty fuel m itr) := by
  induction fuel generalizing m itr with
  | zero =>
    rw [resetAll]
    split
    · exact keepsQueue_ok m
    · exact .error
  | succ fuel ih =>
    rw [resetAll]
    split
    · exact keepsQueue_ok m
    · next a _ =>
      refine .deref fun save => ?_
      split
      · refine Answers.bind (m.answers_resetSave itr) fun e h₁ => ?_
        exact KeepsQueue.of_same h₁ (ih e.1 e.2)
      · exact ih m (itr + 1)

theorem keepsQueue_resetInstance (m : Manager) (mapId instanceId : ℕ) :
    KeepsQueue m (m.resetInstance st mapId instanceId) := by
  rw [resetInstance]
  split
  · exact keepsQueue_ok m
  · split
    · exact keepsQueue_ok m
    · next itr _ => exact Answers.bind (m.answers_resetSave itr) fun e h₁ => .ok h₁

/-! ## The saves -/

/-- The saves are linked, and each is of a map and a difficulty that there are. -/
structure Saved (st : Stores) (m : Manager) : Prop where
  linked : Linked st m
  mapped : ∀ {a s}, m.saves a = some s → (st.mapDifficulty s.mapId s.difficulty).isSome

variable {difficulty mapId : ℕ}

theorem Leaves.mapped (h : Leaves mapId difficulty m m') {a : ℕ} {s' : InstanceSave}
    (hs' : m'.saves a = some s')
    (hm : ∀ {a s}, m.saves a = some s → (st.mapDifficulty s.mapId s.difficulty).isSome) :
    (st.mapDifficulty s'.mapId s'.difficulty).isSome := by
  rcases h.saves a with ⟨s, hs, -⟩ | hsame
  · obtain ⟨hmap, hdiff⟩ := h.same hs hs'
    rw [hmap, hdiff]
    exact hm hs
  · exact hm (hsame ▸ hs')

theorem Saved.of_eq (h : Saved st m) (hsaves : m'.saves = m.saves)
    (htable : m'.instanceSaveById = m.instanceSaveById) (hplayers : m'.playerBinds = m.playerBinds)
    (hgroups : m'.groupBinds = m.groupBinds)
    (htimed : ∀ map d, (m.resetTimeByMapDifficulty map d).isSome →
      (m'.resetTimeByMapDifficulty map d).isSome) : Saved st m' where
  linked :=
    { keys := htable ▸ h.linked.keys
      loaded := by
        rw [hsaves, htable]
        exact h.linked.loaded
      registered := by
        rw [hsaves, htable]
        exact h.linked.registered
      players := by
        rw [hsaves, hplayers]
        exact h.linked.players
      groups := by
        rw [hsaves, hgroups]
        exact h.linked.groups
      timed := fun hdelay hpos => htimed _ _ (h.linked.timed hdelay hpos) }
  mapped := by
    rw [hsaves]
    exact h.mapped

theorem resetInstance_spec (h : Saved st m) (mapId instanceId : ℕ) :
    Yields (m.resetInstance st mapId instanceId) fun m' => SameQueue m m' ∧ Saved st m' := by
  refine (m.keepsQueue_resetInstance mapId instanceId).and_yields ?_
  rw [resetInstance]
  split
  · exact .ok h
  · split
    · exact .ok h
    · next itr hfind =>
      obtain ⟨hlt, -, -⟩ := List.findIdx?_eq_some_iff_getElem.mp hfind
      have hitr : m.instanceSaveById[itr]? = some (m.instanceSaveById[itr].1,
          m.instanceSaveById[itr].2) := List.getElem?_eq_getElem hlt
      obtain ⟨s, hs, -, -⟩ := h.linked.loaded (List.mem_of_getElem? hitr)
      refine (resetSave_spec h.linked hitr hs (h.mapped hs)).bind fun e he => ?_
      exact .ok ⟨he.1, fun hs' => he.2.1.mapped hs' h.mapped⟩

/-- The reset time of one map and difficulty is another. -/
def setTime (times : ℕ → ℕ → Option ℕ) (mapId difficulty t : ℕ) : ℕ → ℕ → Option ℕ :=
  fun mapId' difficulty' =>
    if mapId' = mapId ∧ difficulty' = difficulty then some t else times mapId' difficulty'

/-- A global reset moves the reset time on, and adds the first warning of the next one. -/
theorem resetOrWarnAll_reset (h : Saved st m) (hinst : st.instanceable mapId = true) {resetTime : ℕ}
    (hnext : st.subsequentResetTime mapId difficulty resetTime ≠ 0) :
    Yields (m.resetOrWarnAll st mapId difficulty false resetTime) fun m' => Saved st m' ∧
      m'.resetTimeByMapDifficulty = setTime m.resetTimeByMapDifficulty mapId difficulty
        (st.subsequentResetTime mapId difficulty resetTime) ∧
      m'.resetTimeQueue = Lib.multimapInsert m.resetTimeQueue
        (st.subsequentResetTime mapId difficulty resetTime - hour, ⟨1, mapId, difficulty, 0⟩) := by
  obtain ⟨delay, hdelay, hpos⟩ := exists_of_subsequentResetTime hnext
  have hdiff : (st.mapDifficulty mapId difficulty).isSome := by
    rw [hdelay]
    rfl
  rw [resetOrWarnAll, hinst, if_neg (by decide)]
  rw [if_neg hnext]
  refine ((keepsQueue_resetAll mapId difficulty _ m 0).and_yields
    (resetAll_released hdiff h.linked)).bind fun m₁ h₁ => ?_
  obtain ⟨hsame, hlinked, hleaves, -⟩ := h₁
  have hsaved : Saved st m₁ := ⟨hlinked, fun hs' => hleaves.mapped hs' h.mapped⟩
  rw [setResetTimeFor, if_pos (hlinked.timed hdelay hpos)]
  refine .ok ⟨hsaved.of_eq rfl rfl rfl rfl fun map d hsome => ?_, ?_, ?_⟩
  · show ((if map = mapId ∧ d = difficulty then _ else _) : Option ℕ).isSome
    split
    · rfl
    · exact hsome
  · rw [← hsame.times]
    rfl
  · rw [← hsame.queue]
    rfl

theorem resetOrWarnAll_warn (m : Manager) (mapId difficulty resetTime : ℕ) :
    m.resetOrWarnAll st mapId difficulty true resetTime = .ok m := by
  rw [resetOrWarnAll, Bool.or_true, if_pos rfl]

theorem resetOrWarnAll_untimed (m : Manager) {resetTime : ℕ}
    (hnext : st.subsequentResetTime mapId difficulty resetTime = 0) :
    m.resetOrWarnAll st mapId difficulty false resetTime = .ok m := by
  rw [resetOrWarnAll]
  split
  · rfl
  · rw [hnext, if_pos rfl]

end Manager

end Sunstrider.Instances

/-!
## The queue of resets: what it holds

Each map and difficulty with a global reset has one event without an instance in the queue, as far
before its reset time as the type of the event says (`Queued`), and beside the queue it is remembered
which events were handled: a reset ends a reset time, after at most three warnings of it (`Rounds`).
-/

namespace Sunstrider.Instances

open Lib (Yields KeyOrdered multimapInsert)

/-! ## The settings -/

/-- The map has global resets on that difficulty. -/
def Stores.Global (st : Stores) (mapId difficulty : ℕ) : Prop :=
  ∃ delay, st.mapDifficulty mapId difficulty = some delay ∧ delay ≠ 0

/-- Maps with global resets are instanceable, and resets are not at midnight, unless they are whole days
apart. -/
structure Stores.Raids (st : Stores) : Prop where
  instanceable : ∀ {mapId difficulty}, st.Global mapId difficulty → st.instanceable mapId = true
  spaced : 1 ≤ st.instanceResetTimeHour ∨ ∀ delay, day ∣ st.rated delay

/-- A reset time that `LoadResetTimes` can leave. -/
def Stores.Regular (st : Stores) (resetTime : ℕ) : Prop :=
  hour ≤ resetTime ∧ (1 ≤ st.instanceResetTimeHour ∨ day ∣ resetTime)

variable {st : Stores} {mapId difficulty : ℕ}

/-- The next reset time lies more than an hour later, and is one that the settings can give. -/
theorem subsequentResetTime_spec (hst : st.Raids) (hglobal : st.Global mapId difficulty)
    (resetTime : ℕ) : st.Regular (st.subsequentResetTime mapId difficulty resetTime) ∧
      (st.Regular resetTime →
        resetTime + hour < st.subsequentResetTime mapId difficulty resetTime + minute) := by
  obtain ⟨delay, hdelay, hpos⟩ := hglobal
  have hspaced := hst.spaced
  rw [Stores.Regular, Stores.Regular, Stores.subsequentResetTime, hdelay]
  simp only [if_neg hpos]
  generalize hperiod : (if st.rated delay < day then day else st.rated delay) = period
  have hlong : day ≤ period := by
    rw [← hperiod]
    split <;> omega
  have hwhole : (∀ delay, day ∣ st.rated delay) → day ∣ period := by
    intro h
    rw [← hperiod]
    split
    · exact Nat.dvd_refl day
    · exact h delay
  simp only [day, hour, minute] at hlong hwhole hspaced ⊢
  refine ⟨⟨by omega, ?_⟩, fun ⟨_, hregular⟩ => ?_⟩
  · rcases Nat.lt_or_ge 0 st.instanceResetTimeHour with hlater | hmidnight
    · exact .inl hlater
    · refine .inr ?_
      have hdays := hwhole (hspaced.resolve_left (by omega))
      omega
  · rcases hregular with hlater | hregular
    · omega
    · rcases Nat.lt_or_ge 0 st.instanceResetTimeHour with hlater | hmidnight <;> omega

theorem subsequentResetTime_ne_zero (hst : st.Raids) (hglobal : st.Global mapId difficulty)
    (resetTime : ℕ) : st.subsequentResetTime mapId difficulty resetTime ≠ 0 := by
  have hlong := (subsequentResetTime_spec hst hglobal resetTime).1.1
  simp only [hour] at hlong
  omega

theorem subsequentResetTime_eq_zero (hnot : ¬ st.Global mapId difficulty) (resetTime : ℕ) :
    st.subsequentResetTime mapId difficulty resetTime = 0 := by
  by_contra hne
  exact hnot (Manager.exists_of_subsequentResetTime hne)

/-! ## What is remembered -/

/-- An event that `Update` handled, with its time and the reset time that its map had, or a global reset
that was forced. -/
inductive Entry
  | handled (t : ℕ) (event : InstResetEvent) (resetTime : ℕ)
  | forced (mapId difficulty resetTime : ℕ)

/-- The entry is about the global resets of a map. -/
def Entry.OfPair (mapId difficulty : ℕ) : Entry → Prop
  | .handled _ event _ => event.type ≠ 0 ∧ event.mapId = mapId ∧ event.difficulty = difficulty
  | .forced mapId' difficulty' _ => mapId' = mapId ∧ difficulty' = difficulty

/-- The events of a map come in rounds: at most three warnings of a reset time, the next type each time,
and a reset that ends it. The latest entry comes first. -/
inductive Rounds (mapId difficulty : ℕ) : (resetTime warnings : ℕ) → List Entry → Prop
  | start (resetTime warnings : ℕ) : Rounds mapId difficulty resetTime warnings []
  | other {resetTime warnings : ℕ} {entry : Entry} {log : List Entry}
      (hnot : ¬ entry.OfPair mapId difficulty) (h : Rounds mapId difficulty resetTime warnings log) :
      Rounds mapId difficulty resetTime warnings (entry :: log)
  | warned {t resetTime warnings : ℕ} {log : List Entry} (hfew : warnings < 3)
      (h : Rounds mapId difficulty resetTime warnings log) :
      Rounds mapId difficulty resetTime (warnings + 1)
        (.handled t ⟨warnings + 1, mapId, difficulty, 0⟩ resetTime :: log)
  | reset {t resetTime next : ℕ} {log : List Entry} (hnext : resetTime < next)
      (h : Rounds mapId difficulty resetTime 3 log) :
      Rounds mapId difficulty next 0 (.handled t ⟨4, mapId, difficulty, 0⟩ resetTime :: log)
  | forced {resetTime warnings next : ℕ} {log : List Entry}
      (h : Rounds mapId difficulty resetTime warnings log) :
      Rounds mapId difficulty next 0 (.forced mapId difficulty resetTime :: log)

/-- The manager, with what is remembered of it. -/
structure Traced where
  mgr : Manager
  log : List Entry

/-! ## One event for each map -/

/-- The event is one without an instance, for that map and difficulty. -/
def isGlobal (mapId difficulty : ℕ) (e : ℕ × InstResetEvent) : Bool :=
  e.2.instanceId == 0 && e.2.mapId == mapId && e.2.difficulty == difficulty

/-- The event that a map has when there were so many warnings of its reset time. -/
def pending (mapId difficulty resetTime warnings : ℕ) : ℕ × InstResetEvent :=
  (resetTime - resetTimeDelay (warnings + 1), ⟨warnings + 1, mapId, difficulty, 0⟩)

/-- The map has one global event in the queue, as far before its reset time as its type says. -/
structure HasEvent (t : Traced) (mapId difficulty resetTime warnings : ℕ) : Prop where
  few : warnings ≤ 3
  time : t.mgr.resetTimeByMapDifficulty mapId difficulty = some resetTime
  event : t.mgr.resetTimeQueue.filter (isGlobal mapId difficulty) =
    [pending mapId difficulty resetTime warnings]
  rounds : Rounds mapId difficulty resetTime warnings t.log

/-- **One event for each map with global resets.** -/
def OneEach (st : Stores) (t : Traced) : Prop :=
  ∀ mapId difficulty, st.Global mapId difficulty →
    ∃ resetTime warnings, HasEvent t mapId difficulty resetTime warnings

/-- The queue is in order and holds one event for each map with global resets. Its other events are of
type 0, and for instances. -/
structure Queued (st : Stores) (t : Traced) : Prop where
  saved : Manager.Saved st t.mgr
  ordered : KeyOrdered t.mgr.resetTimeQueue
  each : ∀ mapId difficulty, st.Global mapId difficulty → ∃ resetTime warnings,
    st.Regular resetTime ∧ HasEvent t mapId difficulty resetTime warnings
  raid : ∀ e ∈ t.mgr.resetTimeQueue, e.2.instanceId = 0 → st.Global e.2.mapId e.2.difficulty
  single : ∀ e ∈ t.mgr.resetTimeQueue, e.2.instanceId ≠ 0 → e.2.type = 0

variable {t : Traced}

theorem Queued.oneEach (h : Queued st t) : OneEach st t := by
  intro mapId difficulty hglobal
  obtain ⟨resetTime, warnings, -, hevent⟩ := h.each mapId difficulty hglobal
  exact ⟨resetTime, warnings, hevent⟩

theorem isGlobal_iff {e : ℕ × InstResetEvent} :
    isGlobal mapId difficulty e = true ↔
      e.2.instanceId = 0 ∧ e.2.mapId = mapId ∧ e.2.difficulty = difficulty := by
  simp [isGlobal, and_assoc]

theorem isGlobal_pending (mapId difficulty resetTime warnings : ℕ) :
    isGlobal mapId difficulty (pending mapId difficulty resetTime warnings) = true :=
  isGlobal_iff.mpr ⟨rfl, rfl, rfl⟩

theorem perm_eraseP_of_find {α : Type} {p : α → Bool} {l : List α} {a : α} (h : l.find? p = some a) :
    l.Perm (a :: l.eraseP p) := by
  induction l with
  | nil => cases h
  | cons b l ih =>
    rw [List.find?_cons] at h
    split at h
    next hb =>
      cases h
      rw [List.eraseP_cons_of_pos hb]
    next hb =>
      rw [List.eraseP_cons_of_neg (by simp [hb])]
      exact ((ih h).cons b).trans (List.Perm.swap a b _)

theorem HasEvent.mem {resetTime warnings : ℕ} (h : HasEvent t mapId difficulty resetTime warnings) :
    pending mapId difficulty resetTime warnings ∈ t.mgr.resetTimeQueue := by
  have hmem : pending mapId difficulty resetTime warnings ∈
      t.mgr.resetTimeQueue.filter (isGlobal mapId difficulty) := by
    rw [h.event]
    exact List.mem_singleton_self _
  exact (List.mem_filter.mp hmem).1

/-- **A map's event is replaced.** The other events stay, and what is remembered grows by one entry. -/
theorem Queued.replace (h : Queued st t) (hglobal : st.Global mapId difficulty)
    {resetTime warnings : ℕ} (hold : HasEvent t mapId difficulty resetTime warnings)
    {rest : List (ℕ × InstResetEvent)}
    (hrest : t.mgr.resetTimeQueue.Perm (pending mapId difficulty resetTime warnings :: rest))
    (hordered : KeyOrdered rest) {mgr : Manager} {entry : Entry} {next warnings' : ℕ}
    (hsaved : Manager.Saved st mgr) (hregular : st.Regular next) (hfew : warnings' ≤ 3)
    (htimes : mgr.resetTimeByMapDifficulty =
      Manager.setTime t.mgr.resetTimeByMapDifficulty mapId difficulty next)
    (hqueue : mgr.resetTimeQueue = multimapInsert rest (pending mapId difficulty next warnings'))
    (hentry : entry.OfPair mapId difficulty)
    (hrounds : Rounds mapId difficulty next warnings' (entry :: t.log)) :
    Queued st ⟨mgr, entry :: t.log⟩ := by
  have hperm : mgr.resetTimeQueue.Perm (pending mapId difficulty next warnings' :: rest) := by
    rw [hqueue]
    exact Lib.multimapInsert_perm _ _
  have hmem : ∀ e ∈ mgr.resetTimeQueue,
      e = pending mapId difficulty next warnings' ∨ e ∈ t.mgr.resetTimeQueue := by
    intro e he
    refine (List.mem_cons.mp (hperm.mem_iff.mp he)).imp_right fun hin => ?_
    exact hrest.mem_iff.mpr (List.mem_cons_of_mem _ hin)
  refine ⟨hsaved, ?_, fun mapId' difficulty' hglobal' => ?_, fun e he hid => ?_, fun e he hid => ?_⟩
  · show KeyOrdered mgr.resetTimeQueue
    rw [hqueue]
    exact Lib.keyOrdered_insert hordered _
  · by_cases hpair : mapId' = mapId ∧ difficulty' = difficulty
    · obtain ⟨rfl, rfl⟩ := hpair
      refine ⟨next, warnings', hregular, hfew, ?_, ?_, hrounds⟩
      · rw [htimes]
        exact if_pos ⟨rfl, rfl⟩
      · have hnone : rest.filter (isGlobal mapId' difficulty') = [] := by
          have hfilter := hrest.filter (isGlobal mapId' difficulty')
          rw [hold.event, List.filter_cons_of_pos (isGlobal_pending _ _ _ _)] at hfilter
          exact List.nil_perm.mp ((List.perm_cons _).mp hfilter)
        have hfilter := hperm.filter (isGlobal mapId' difficulty')
        rw [List.filter_cons_of_pos (isGlobal_pending _ _ _ _), hnone] at hfilter
        exact List.perm_singleton.mp hfilter
    · obtain ⟨resetTime', warnings₂, hregular', hevent⟩ := h.each mapId' difficulty' hglobal'
      refine ⟨resetTime', warnings₂, hregular', hevent.few, ?_, ?_, .other ?_ hevent.rounds⟩
      · rw [htimes, ← hevent.time]
        exact if_neg hpair
      · have hnot : ∀ r n, ¬ isGlobal mapId' difficulty' (pending mapId difficulty r n) = true := by
          intro r n hin
          obtain ⟨-, hmap, hdiff⟩ := isGlobal_iff.mp hin
          exact hpair ⟨hmap.symm, hdiff.symm⟩
        have hfilter := hrest.filter (isGlobal mapId' difficulty')
        have hfilter' := hperm.filter (isGlobal mapId' difficulty')
        rw [List.filter_cons_of_neg (hnot _ _)] at hfilter hfilter'
        rw [hevent.event] at hfilter
        exact List.perm_singleton.mp (hfilter'.trans hfilter.symm)
      · intro hother
        cases entry with
        | handled _ event _ =>
          exact hpair ⟨hother.2.1.symm.trans hentry.2.1, hother.2.2.symm.trans hentry.2.2⟩
        | forced =>
          exact hpair ⟨hother.1.symm.trans hentry.1, hother.2.symm.trans hentry.2⟩
  · rcases hmem e he with rfl | hin
    · exact hglobal
    · exact h.raid e hin hid
  · rcases hmem e he with rfl | hin
    · exact absurd rfl hid
    · exact h.single e hin hid

/-- **Events of instances come and go.** The global events stay, and what is remembered grows by entries
that are about no map's global resets. -/
theorem Queued.edit (h : Queued st t) {mgr : Manager} {log : List Entry}
    (hsaved : Manager.Saved st mgr) (hordered : KeyOrdered mgr.resetTimeQueue)
    (htimes : mgr.resetTimeByMapDifficulty = t.mgr.resetTimeByMapDifficulty)
    (hsame : ∀ mapId difficulty, (mgr.resetTimeQueue.filter (isGlobal mapId difficulty)).Perm
      (t.mgr.resetTimeQueue.filter (isGlobal mapId difficulty)))
    (hsingle : ∀ e ∈ mgr.resetTimeQueue, e ∈ t.mgr.resetTimeQueue ∨
      e.2.instanceId ≠ 0 ∧ e.2.type = 0) (hlog : ∀ mapId difficulty resetTime warnings,
      Rounds mapId difficulty resetTime warnings t.log →
      Rounds mapId difficulty resetTime warnings log) : Queued st ⟨mgr, log⟩ where
  saved := hsaved
  ordered := hordered
  each mapId difficulty hglobal := by
    obtain ⟨resetTime, warnings, hregular, hevent⟩ := h.each mapId difficulty hglobal
    refine ⟨resetTime, warnings, hregular, hevent.few, ?_, ?_, hlog _ _ _ _ hevent.rounds⟩
    · rw [← hevent.time]
      exact congrFun (congrFun htimes mapId) difficulty
    · have hfilter := hsame mapId difficulty
      rw [hevent.event] at hfilter
      exact List.perm_singleton.mp hfilter
  raid e he hid := by
    rcases hsingle e he with hin | hnew
    · exact h.raid e hin hid
    · exact absurd hid hnew.1
  single e he hid := by
    rcases hsingle e he with hin | hnew
    · exact h.single e hin hid
    · exact hnew.2

end Sunstrider.Instances
