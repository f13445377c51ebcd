import Mathlib.Tactic.IntervalCases
import Sunstrider.Laws.Instances.ResetQueue

/-!
# Runs of the queue of resets

`Update` handles the front of the queue and erases it, for the event of a map puts its next one in, and
comes to its end with no event due (`Queued.update`). Two operations can take a wrong event out: events
are compared by sixteen bits of their instance, so a forced reset takes the first global event of any
map, twice, and a cancelled event can be another one with the same sixteen bits. `Admits` says when they
do not, and in every run whose steps meet it the queue keeps one event for each map.
-/

namespace Sunstrider.Instances

open Lib (Yields KeyOrdered multimapInsert Admitted run)

/-! ## Operations -/

/-- What happens to the queue. Between its calls the saves and the binds change as they may. -/
inductive QueueOp (st : Stores)
  | update (now : ℕ)
  | forceGlobalReset (mapId difficulty now : ℕ)
  | schedule (t mapId difficulty instanceId : ℕ)
  | cancel (t mapId difficulty instanceId : ℕ)
  | others (m : Manager) (saved : Manager.Saved st m)

/-- One operation. -/
def queueStep (st : Stores) (m : Manager) : QueueOp st → Except Fault Manager
  | .update now => m.update st now
  | .forceGlobalReset mapId difficulty now => m.forceGlobalReset st mapId difficulty now
  | .schedule t mapId difficulty instanceId =>
    .ok (m.scheduleReset t (.ofInstance mapId difficulty instanceId))
  | .cancel t mapId difficulty instanceId =>
    .ok (m.cancelReset t (.ofInstance mapId difficulty instanceId))
  | .others m' _ =>
    .ok { m' with
      resetTimeByMapDifficulty := m.resetTimeByMapDifficulty
      resetTimeQueue := m.resetTimeQueue }

namespace Traced

/-- The front of the queue is handled, which is remembered. -/
def handleFront (st : Stores) (t : Traced) (e : ℕ × InstResetEvent) : Except Fault Traced :=
  (t.mgr.handleFront st e.2).map fun m =>
    ⟨m, .handled e.1 e.2 (t.mgr.getResetTimeFor e.2.mapId e.2.difficulty) :: t.log⟩

/-- `Update`, and what is remembered of it. -/
def update (st : Stores) (t : Traced) (now : ℕ) : Except Fault Traced :=
  Lib.drain (fun t => t.mgr.due now) (handleFront st) .endless (t.mgr.overdue now) t

/-- What is remembered of a forced reset. -/
def forcedLog (st : Stores) (t : Traced) (mapId difficulty now : ℕ) : List Entry :=
  match st.downscaledDifficulty mapId difficulty with
  | none => t.log
  | some difficulty =>
    if st.subsequentResetTime mapId difficulty now = 0 then t.log
    else .forced mapId difficulty (t.mgr.getResetTimeFor mapId difficulty) :: t.log

end Traced

/-- One operation, and what is remembered of it. -/
def traced (st : Stores) (t : Traced) : QueueOp st → Except Fault Traced
  | .update now => t.update st now
  | .forceGlobalReset mapId difficulty now =>
    (t.mgr.forceGlobalReset st mapId difficulty now).map fun m =>
      ⟨m, t.forcedLog st mapId difficulty now⟩
  | op => (queueStep st t.mgr op).map fun m => ⟨m, t.log⟩

theorem Traced.mgr_update (st : Stores) (t : Traced) (now : ℕ) :
    (t.update st now).map Traced.mgr = t.mgr.update st now := by
  refine Lib.map_drain (f := Traced.mgr) (fun _ => rfl) (fun t e => ?_) (t.mgr.overdue now) t
  unfold handleFront
  cases t.mgr.handleFront st e.2 <;> rfl

/-- What is remembered changes no operation. -/
theorem mgr_traced (st : Stores) (t : Traced) (op : QueueOp st) :
    (traced st t op).map Traced.mgr = queueStep st t.mgr op := by
  cases op with
  | update now => exact Traced.mgr_update st t now
  | forceGlobalReset mapId difficulty now =>
    rw [traced, queueStep]
    cases t.mgr.forceGlobalReset st mapId difficulty now <;> rfl
  | schedule | cancel | others => rfl

/-! ## The property of a step -/

/-- The pair that an entry took out of the queue. -/
def Entry.erased : Entry → List (ℕ × InstResetEvent)
  | .handled t event _ => [(t, event)]
  | .forced _ _ _ => []

/-- The pair that `Update` put in for it. -/
def Entry.added (st : Stores) : Entry → List (ℕ × InstResetEvent)
  | .handled _ event resetTime =>
    if event.type = 0 then []
    else if event.type = 4 then
      [pending event.mapId event.difficulty
        (st.subsequentResetTime event.mapId event.difficulty resetTime) 0]
    else [pending event.mapId event.difficulty resetTime event.type]
  | .forced _ _ _ => []

/-- **What an operation takes out.** `Update` takes out the events that it handled, and leaves none that
is due. A forced reset takes out the event of its map only, and a cancelled event is taken out and no
other one. -/
def Erases (st : Stores) (t t' : Traced) : QueueOp st → Prop
  | .update now => (∀ e ∈ t'.mgr.resetTimeQueue, now ≤ e.1) ∧ ∃ done, t'.log = done ++ t.log ∧
    (t.mgr.resetTimeQueue ++ done.flatMap (Entry.added st)).Perm
      (done.flatMap Entry.erased ++ t'.mgr.resetTimeQueue)
  | .forceGlobalReset mapId difficulty _ =>
    match st.downscaledDifficulty mapId difficulty with
    | none => t'.mgr.resetTimeQueue = t.mgr.resetTimeQueue
    | some difficulty =>
      (t'.mgr.resetTimeQueue.filter fun e => !isGlobal mapId difficulty e).Perm
        (t.mgr.resetTimeQueue.filter fun e => !isGlobal mapId difficulty e)
  | .schedule time mapId difficulty instanceId =>
    t'.mgr.resetTimeQueue.Perm ((time, ⟨0, mapId, difficulty, instanceId⟩) :: t.mgr.resetTimeQueue)
  | .cancel _ mapId difficulty instanceId =>
    (∃ time, t.mgr.resetTimeQueue.Perm
      ((time, ⟨0, mapId, difficulty, instanceId⟩) :: t'.mgr.resetTimeQueue)) ∨
    (∀ time, (time, ⟨0, mapId, difficulty, instanceId⟩) ∉ t.mgr.resetTimeQueue) ∧
      t'.mgr.resetTimeQueue = t.mgr.resetTimeQueue
  | .others _ _ => t'.mgr.resetTimeQueue = t.mgr.resetTimeQueue

/-! ## The condition of a step -/

/-- The first pair with an id of an instance among those at a time, or else in the whole queue. -/
def Manager.firstWith (m : Manager) (t instanceId : ℕ) : Option (ℕ × InstResetEvent) :=
  (m.resetTimeQueue.find? fun e => e.1 == t && instanceId == e.2.instanceId).or
    (m.resetTimeQueue.find? fun e => instanceId == e.2.instanceId)

/-- **The condition of a step.** A reset is forced only where no map has global resets but the one that
it is for, ids of instances fit sixteen bits and are not 0, and the first event with the id of a
cancelled one is of the same map and difficulty. -/
def Admits (st : Stores) (t : Traced) : QueueOp st → Prop
  | .forceGlobalReset mapId difficulty _ =>
    ∀ difficulty', st.downscaledDifficulty mapId difficulty = some difficulty' →
      ∀ map d, st.Global map d → map = mapId ∧ d = difficulty'
  | .schedule _ _ _ instanceId => instanceId ≠ 0 ∧ instanceId < 2 ^ 16
  | .cancel time mapId difficulty instanceId => instanceId ≠ 0 ∧ instanceId < 2 ^ 16 ∧
    ∀ e, t.mgr.firstWith time instanceId = some e →
      e.2.mapId = mapId ∧ e.2.difficulty = difficulty
  | _ => True

variable {st : Stores} {t : Traced} {mapId difficulty : ℕ}

/-! ## Cancelling -/

theorem cancelReset_queue (m : Manager) (time : ℕ) (event : InstResetEvent) :
    match m.firstWith time event.instanceId with
    | some e => e.2.instanceId = event.instanceId ∧
      m.resetTimeQueue.Perm (e :: (m.cancelReset time event).resetTimeQueue)
    | none => (∀ e ∈ m.resetTimeQueue, e.2.instanceId ≠ event.instanceId) ∧
      (m.cancelReset time event).resetTimeQueue = m.resetTimeQueue := by
  rw [Manager.firstWith, Manager.cancelReset]
  cases hat : m.resetTimeQueue.find? fun e => e.1 == time && event.instanceId == e.2.instanceId with
  | some e =>
    have hsame := List.find?_some hat
    rw [if_pos (List.any_eq_true.mpr ⟨e, List.mem_of_find?_eq_some hat, hsame⟩)]
    simp only [Bool.and_eq_true, beq_iff_eq] at hsame
    exact ⟨hsame.2.symm, perm_eraseP_of_find hat⟩
  | none =>
    have hnone := List.find?_eq_none.mp hat
    rw [if_neg fun hany => by
      obtain ⟨e, he, hsame⟩ := List.any_eq_true.mp hany
      exact hnone e he hsame, Option.none_or]
    cases hfind : m.resetTimeQueue.find? fun e => event.instanceId == e.2.instanceId with
    | some e =>
      have hsame := List.find?_some hfind
      exact ⟨(beq_iff_eq.mp hsame).symm, perm_eraseP_of_find hfind⟩
    | none =>
      have hno := List.find?_eq_none.mp hfind
      refine ⟨fun e he hsame => hno e he (beq_iff_eq.mpr hsame.symm), ?_⟩
      exact List.eraseP_of_forall_not hno

theorem cancelReset_sublist (m : Manager) (time : ℕ) (event : InstResetEvent) :
    (m.cancelReset time event).resetTimeQueue.Sublist m.resetTimeQueue := by
  rw [Manager.cancelReset]
  split
  · exact List.eraseP_sublist
  · exact List.eraseP_sublist

variable {m : Manager}

theorem saved_cancelReset (h : Manager.Saved st m) (time : ℕ) (event : InstResetEvent) :
    Manager.Saved st (m.cancelReset time event) ∧
      (m.cancelReset time event).resetTimeByMapDifficulty = m.resetTimeByMapDifficulty := by
  rw [Manager.cancelReset]
  split
  · exact ⟨h.of_eq rfl rfl rfl rfl fun _ _ hs => hs, rfl⟩
  · exact ⟨h.of_eq rfl rfl rfl rfl fun _ _ hs => hs, rfl⟩

theorem Queued.cancel (h : Queued st t) {time instanceId : ℕ}
    (hadmits : Admits st t (.cancel time mapId difficulty instanceId)) :
    Queued st ⟨t.mgr.cancelReset time (.ofInstance mapId difficulty instanceId), t.log⟩ ∧
      Erases st t ⟨t.mgr.cancelReset time (.ofInstance mapId difficulty instanceId), t.log⟩
        (.cancel time mapId difficulty instanceId) := by
  obtain ⟨hpos, hlt, hfirst⟩ := hadmits
  have hid : (InstResetEvent.ofInstance mapId difficulty instanceId).instanceId = instanceId :=
    Nat.mod_eq_of_lt hlt
  have hsub := cancelReset_sublist t.mgr time (.ofInstance mapId difficulty instanceId)
  have hspec := cancelReset_queue t.mgr time (.ofInstance mapId difficulty instanceId)
  obtain ⟨hsaved, htimes⟩ := saved_cancelReset h.saved time (.ofInstance mapId difficulty instanceId)
  rw [hid] at hspec
  cases hfound : t.mgr.firstWith time instanceId with
  | none =>
    rw [hfound] at hspec
    obtain ⟨hnone, hsame⟩ := hspec
    refine ⟨h.edit hsaved (hsame ▸ h.ordered) htimes (fun map d => by rw [hsame])
      (fun e he => .inl (hsub.subset he)) fun _ _ _ _ hr => hr, .inr ⟨fun time' hin => ?_, hsame⟩⟩
    exact hnone _ hin rfl
  | some e =>
    rw [hfound] at hspec
    obtain ⟨hsame, hperm⟩ := hspec
    obtain ⟨hmap, hdiff⟩ := hfirst e hfound
    have htype := h.single e (hperm.mem_iff.mpr List.mem_cons_self) (by rw [hsame]; exact hpos)
    have hevent : e = (e.1, ⟨0, mapId, difficulty, instanceId⟩) := by
      rw [← htype, ← hmap, ← hdiff, ← hsame]
    refine ⟨h.edit hsaved (h.ordered.sublist hsub) htimes (fun map d => ?_)
      (fun e he => .inl (hsub.subset he)) fun _ _ _ _ hr => hr, .inl ⟨e.1, hevent ▸ hperm⟩⟩
    have hfilter := hperm.filter (isGlobal map d)
    rw [List.filter_cons_of_neg fun hin => hpos (hsame ▸ (isGlobal_iff.mp hin).1)] at hfilter
    exact hfilter.symm

theorem Queued.schedule (h : Queued st t) {time instanceId : ℕ}
    (hadmits : Admits st t (.schedule time mapId difficulty instanceId)) :
    Queued st ⟨t.mgr.scheduleReset time (.ofInstance mapId difficulty instanceId), t.log⟩ ∧
      Erases st t ⟨t.mgr.scheduleReset time (.ofInstance mapId difficulty instanceId), t.log⟩
        (.schedule time mapId difficulty instanceId) := by
  obtain ⟨hpos, hlt⟩ := hadmits
  have hevent : InstResetEvent.ofInstance mapId difficulty instanceId =
      ⟨0, mapId, difficulty, instanceId⟩ := by
    rw [InstResetEvent.ofInstance, Nat.mod_eq_of_lt hlt]
  rw [hevent]
  have hperm : (multimapInsert t.mgr.resetTimeQueue
      (time, ⟨0, mapId, difficulty, instanceId⟩)).Perm _ := Lib.multimapInsert_perm _ _
  have hordered := Lib.keyOrdered_insert h.ordered (time, ⟨0, mapId, difficulty, instanceId⟩)
  refine ⟨h.edit (h.saved.of_eq rfl rfl rfl rfl fun _ _ hs => hs) hordered rfl
    (fun map d => ?_) (fun e he => ?_)
    fun _ _ _ _ hr => hr, hperm⟩
  · have hfilter := hperm.filter (isGlobal map d)
    rwa [List.filter_cons_of_neg fun hin => hpos (isGlobal_iff.mp hin).1] at hfilter
  · rcases List.mem_cons.mp (hperm.mem_iff.mp he) with rfl | hin
    · exact .inr ⟨hpos, rfl⟩
    · exact .inl hin

/-! ## Update -/

variable {now : ℕ} {e : ℕ × InstResetEvent}

theorem due_eq_some (h : m.due now = some e) :
    e.1 < now ∧ ∃ rest, m.resetTimeQueue = e :: rest := by
  rw [Manager.due] at h
  split at h
  · cases h
  · next rest hqueue =>
    split at h
    · cases h
    · next hlate =>
      cases h
      exact ⟨Nat.lt_of_not_le hlate, rest, hqueue⟩

theorem le_of_due_eq_none (hordered : KeyOrdered m.resetTimeQueue) (h : m.due now = none) :
    ∀ e ∈ m.resetTimeQueue, now ≤ e.1 := by
  intro e he
  rw [Manager.due] at h
  split at h
  next hqueue =>
    rw [hqueue] at he
    cases he
  next t event rest hqueue =>
    split at h
    · next hlate =>
      rw [hqueue] at he hordered
      rcases List.mem_cons.mp he with rfl | hin
      · exact hlate
      · exact Nat.le_trans hlate ((List.pairwise_cons.mp hordered).1 e hin)
    · cases h

/-- What is put in for the front comes later than it. -/
structure Advances (e : ℕ × InstResetEvent) (added : List (ℕ × InstResetEvent)) : Prop where
  few : added.length ≤ 1
  later : ∀ x ∈ added, e.1 < x.1

variable {rest : List (ℕ × InstResetEvent)}

theorem Queued.handleInstance (h : Queued st t) (hqueue : t.mgr.resetTimeQueue = e :: rest)
    (hid : e.2.instanceId ≠ 0) :
    Yields (t.handleFront st e) fun t' => Queued st t' ∧ ∃ resetTime,
      t'.log = .handled e.1 e.2 resetTime :: t.log ∧
      t'.mgr.resetTimeQueue = (Entry.handled e.1 e.2 resetTime).added st ++ rest ∧
      Advances e ((Entry.handled e.1 e.2 resetTime).added st) := by
  have htype : e.2.type = 0 := h.single e (by rw [hqueue]; exact List.mem_cons_self) hid
  obtain ⟨m, hm, hsame, hsaved⟩ := Manager.resetInstance_spec h.saved e.2.mapId e.2.instanceId
  have hrest : m.eraseFront.resetTimeQueue = rest := by
    rw [Manager.eraseFront, hsame.queue, hqueue]
    rfl
  have hrun : t.handleFront st e = .ok ⟨m.eraseFront,
      .handled e.1 e.2 (t.mgr.getResetTimeFor e.2.mapId e.2.difficulty) :: t.log⟩ := by
    rw [Traced.handleFront, Manager.handleFront, if_pos htype, hm]
    rfl
  rw [hrun]
  have hnone : ∀ r, (Entry.handled e.1 e.2 r).added st = [] := fun r => if_pos htype
  refine .ok ⟨h.edit (hsaved.of_eq rfl rfl rfl rfl fun _ _ hs => hs) ?_ hsame.times
    (fun map d => ?_) (fun x hx => .inl ?_) fun map d r n hr => .other (fun hof => hof.1 htype) hr,
    _, rfl, ?_, ?_⟩
  · rw [hrest]
    have hordered := h.ordered
    rw [hqueue] at hordered
    exact (List.pairwise_cons.mp hordered).2
  · rw [hrest, hqueue, List.filter_cons_of_neg fun hin => hid (isGlobal_iff.mp hin).1]
  · rw [hrest] at hx
    rw [hqueue]
    exact List.mem_cons_of_mem _ hx
  · rw [hnone]
    exact hrest
  · rw [hnone]
    exact ⟨Nat.zero_le _, fun _ hx => (nomatch hx)⟩

variable {resetTime : ℕ}

theorem setTime_self {times : ℕ → ℕ → Option ℕ} (h : times mapId difficulty = some resetTime) :
    Manager.setTime times mapId difficulty resetTime = times := by
  funext map d
  rw [Manager.setTime]
  split
  · next hpair => rw [hpair.1, hpair.2, h]
  · rfl

theorem pending_lt (mapId difficulty : ℕ) {warnings : ℕ} (hlong : hour ≤ resetTime)
    (hfew : warnings < 3) :
    (pending mapId difficulty resetTime warnings).1 <
      (pending mapId difficulty resetTime (warnings + 1)).1 := by
  simp only [hour] at hlong
  interval_cases warnings <;> simp only [pending, resetTimeDelay] <;> omega

theorem Queued.handlePending (hst : st.Raids) (h : Queued st t)
    (hglobal : st.Global mapId difficulty) {warnings : ℕ} (hregular : st.Regular resetTime)
    (hevent : HasEvent t mapId difficulty resetTime warnings)
    (hqueue : t.mgr.resetTimeQueue = pending mapId difficulty resetTime warnings :: rest) :
    Yields (t.handleFront st (pending mapId difficulty resetTime warnings)) fun t' =>
      Queued st t' ∧ ∃ next warnings',
        t'.log = .handled (pending mapId difficulty resetTime warnings).1
          (pending mapId difficulty resetTime warnings).2 resetTime :: t.log ∧
        (Entry.handled (pending mapId difficulty resetTime warnings).1
          (pending mapId difficulty resetTime warnings).2 resetTime).added st =
            [pending mapId difficulty next warnings'] ∧
        t'.mgr.resetTimeQueue = multimapInsert rest (pending mapId difficulty next warnings') ∧
        (pending mapId difficulty resetTime warnings).1 <
          (pending mapId difficulty next warnings').1 := by
  have hordered := h.ordered
  rw [hqueue] at hordered
  have hrest : KeyOrdered rest := (List.pairwise_cons.mp hordered).2
  have hperm : t.mgr.resetTimeQueue.Perm (pending mapId difficulty resetTime warnings :: rest) := by
    rw [hqueue]
  have htime : t.mgr.getResetTimeFor mapId difficulty = resetTime := by
    rw [Manager.getResetTimeFor, hevent.time]
  rcases Nat.lt_or_ge warnings 3 with hfew | hmany
  · -- a warning, and the event comes back with the next type
    have hlt := pending_lt mapId difficulty hregular.1 hfew
    have htype : warnings + 1 ≠ 4 := by omega
    have hadded : (Entry.handled (pending mapId difficulty resetTime warnings).1
        (pending mapId difficulty resetTime warnings).2 resetTime).added st =
        [pending mapId difficulty resetTime (warnings + 1)] := by
      simp [Entry.added, pending, htype]
    have hafter : ((t.mgr.nextType.scheduleReset (resetTime - resetTimeDelay (warnings + 2))
        ⟨warnings + 2, mapId, difficulty, 0⟩).eraseFront).resetTimeQueue =
        multimapInsert rest (pending mapId difficulty resetTime (warnings + 1)) := by
      show (multimapInsert (t.mgr.resetTimeQueue.modifyHead _)
        (pending mapId difficulty resetTime (warnings + 1))).tail = _
      rw [hqueue, List.modifyHead_cons]
      rw [Lib.multimapInsert_cons (Nat.le_of_lt hlt), List.tail_cons]
    have hrun : t.handleFront st (pending mapId difficulty resetTime warnings) =
        .ok ⟨(t.mgr.nextType.scheduleReset (resetTime - resetTimeDelay (warnings + 2))
          ⟨warnings + 2, mapId, difficulty, 0⟩).eraseFront,
          .handled (pending mapId difficulty resetTime warnings).1
            (pending mapId difficulty resetTime warnings).2 resetTime :: t.log⟩ := by
      simp only [Traced.handleFront, Manager.handleFront, pending, htime, ne_eq, htype,
        not_false_eq_true, decide_true, Manager.resetOrWarnAll_warn, if_true, Nat.succ_ne_zero,
        if_false]
      rfl
    rw [hrun]
    refine .ok ⟨h.replace hglobal hevent hperm hrest
      (h.saved.of_eq rfl rfl rfl rfl fun _ _ hs => hs) hregular hfew
      (setTime_self hevent.time).symm hafter ⟨Nat.succ_ne_zero _, rfl, rfl⟩
      (.warned hfew hevent.rounds), resetTime, warnings + 1, rfl, hadded, hafter, hlt⟩
  · -- the reset, and the first warning of the next reset time
    obtain rfl : warnings = 3 := Nat.le_antisymm hevent.few hmany
    obtain ⟨hnext, hlater⟩ := subsequentResetTime_spec hst hglobal resetTime
    have hlate := hlater hregular
    obtain ⟨m, hm, hsaved, htimes, hnew⟩ := Manager.resetOrWarnAll_reset h.saved
      (hst.instanceable hglobal) (subsequentResetTime_ne_zero hst hglobal resetTime)
    generalize hgives : st.subsequentResetTime mapId difficulty resetTime = next at *
    have hlt : (pending mapId difficulty resetTime 3).1 < (pending mapId difficulty next 0).1 := by
      have hlong := hregular.1
      simp only [hour, minute] at hlate hlong
      simp only [pending, resetTimeDelay]
      omega
    have hafter : m.eraseFront.resetTimeQueue =
        multimapInsert rest (pending mapId difficulty next 0) := by
      show m.resetTimeQueue.tail = _
      rw [hnew, hqueue]
      exact congrArg List.tail (Lib.multimapInsert_cons (Nat.le_of_lt hlt) rest)
    have hrun : t.handleFront st (pending mapId difficulty resetTime 3) = .ok ⟨m.eraseFront,
        .handled (pending mapId difficulty resetTime 3).1 (pending mapId difficulty resetTime 3).2
          resetTime :: t.log⟩ := by
      simp only [Traced.handleFront, Manager.handleFront, pending, htime, Nat.succ_ne_zero,
        if_false, ne_eq, not_true_eq_false, decide_false, hm]
      rfl
    rw [hrun]
    refine .ok ⟨h.replace hglobal hevent hperm hrest
      (hsaved.of_eq rfl rfl rfl rfl fun _ _ hs => hs) hnext (Nat.zero_le _) htimes hafter
      ⟨Nat.succ_ne_zero _, rfl, rfl⟩ (.reset ?_ hevent.rounds), next, 0, rfl, ?_, hafter, hlt⟩
    · simp only [hour, minute] at hlate
      omega
    · rw [← hgives]
      rfl

theorem Queued.handleFront (hst : st.Raids) (h : Queued st t)
    (hqueue : t.mgr.resetTimeQueue = e :: rest) :
    Yields (t.handleFront st e) fun t' => Queued st t' ∧ ∃ resetTime,
      t'.log = .handled e.1 e.2 resetTime :: t.log ∧
      t'.mgr.resetTimeQueue.Perm ((Entry.handled e.1 e.2 resetTime).added st ++ rest) ∧
      Advances e ((Entry.handled e.1 e.2 resetTime).added st) := by
  by_cases hid : e.2.instanceId = 0
  · have hmem : e ∈ t.mgr.resetTimeQueue := by
      rw [hqueue]
      exact List.mem_cons_self
    have hglobal := h.raid e hmem hid
    obtain ⟨resetTime, warnings, hregular, hevent⟩ := h.each _ _ hglobal
    have hfront : e = pending e.2.mapId e.2.difficulty resetTime warnings := by
      have hin := List.mem_filter.mpr ⟨hmem, isGlobal_iff.mpr ⟨hid, rfl, rfl⟩⟩
      rw [hevent.event] at hin
      exact List.mem_singleton.mp hin
    generalize e.2.mapId = mapId at *
    generalize e.2.difficulty = difficulty at *
    subst hfront
    refine (h.handlePending hst hglobal hregular hevent hqueue).mono ?_
    rintro t' ⟨hqueued, next, warnings', hlog, hadded, hafter, hlt⟩
    refine ⟨hqueued, resetTime, hlog, ?_, ?_⟩
    · rw [hafter, hadded]
      exact Lib.multimapInsert_perm _ _
    · rw [hadded]
      exact ⟨Nat.le_refl 1, fun x hx => List.mem_singleton.mp hx ▸ hlt⟩
  · refine (h.handleInstance hqueue hid).mono ?_
    rintro t' ⟨hqueued, resetTime, hlog, hafter, hadvances⟩
    exact ⟨hqueued, resetTime, hlog, hafter ▸ List.Perm.refl _, hadvances⟩

theorem overdue_lt {m' : Manager} {added : List (ℕ × InstResetEvent)} (hdue : e.1 < now)
    (hqueue : m.resetTimeQueue = e :: rest) (hafter : m'.resetTimeQueue.Perm (added ++ rest))
    (hadvances : Advances e added) : m'.overdue now < m.overdue now := by
  have hsum : m'.overdue now = ((added ++ rest).map fun e => now - e.1).sum :=
    (hafter.map _).sum_nat
  rw [hsum, Manager.overdue, hqueue, List.map_append, List.sum_append, List.map_cons, List.sum_cons]
  match added, hadvances with
  | [], _ =>
    simp only [List.map_nil, List.sum_nil]
    omega
  | [x], hadvances =>
    have hlater := hadvances.later x (List.mem_singleton_self x)
    simp only [List.map_cons, List.map_nil, List.sum_cons, List.sum_nil]
    omega
  | _ :: _ :: _, hadvances =>
    have hfew := hadvances.few
    simp only [List.length_cons] at hfew
    omega

/-- **`Update` comes to its end**, and erases what it handled. -/
theorem Queued.update (hst : st.Raids) (h : Queued st t) (now : ℕ) :
    Yields (t.update st now) fun t' => Queued st t' ∧ Erases st t t' (.update now) := by
  let Inv (s : Traced) : Prop := Queued st s ∧ ∃ done, s.log = done ++ t.log ∧
    (t.mgr.resetTimeQueue ++ done.flatMap (Entry.added st)).Perm
      (done.flatMap Entry.erased ++ s.mgr.resetTimeQueue)
  have hinit : Inv t := ⟨h, [], rfl, by simp⟩
  have hround : ∀ s e, Inv s → s.mgr.due now = some e → Yields (s.handleFront st e) fun s' =>
      Inv s' ∧ s'.mgr.overdue now < s.mgr.overdue now := by
    rintro s ⟨time, event⟩ ⟨hs, done, hlog, hperm⟩ hdue
    obtain ⟨hlt, rest, hqueue⟩ := due_eq_some hdue
    refine (hs.handleFront hst hqueue).mono ?_
    rintro s' ⟨hs', resetTime, hlog', hafter, hadvances⟩
    refine ⟨⟨hs', .handled time event resetTime :: done, by rw [hlog', hlog]; rfl, ?_⟩,
      overdue_lt hlt hqueue hafter hadvances⟩
    rw [hqueue] at hperm
    rw [List.perm_iff_count]
    intro x
    have hbefore := hperm.count_eq x
    have hnext := hafter.count_eq x
    simp only [List.count_append, List.flatMap_cons, List.count_cons, List.count_nil,
      Entry.erased] at hbefore hnext ⊢
    omega
  refine (Yields.drain Inv (fun s => s.mgr.overdue now) hround (t.mgr.overdue now) hinit
    (Nat.le_refl _)).mono ?_
  rintro t' ⟨⟨ht', hdone⟩, hend⟩
  exact ⟨ht', le_of_due_eq_none ht'.ordered hend, hdone⟩

/-! ## ForceGlobalReset -/

/-- Where no event is global, cancelling a global event does nothing to the queue. -/
theorem cancelReset_of_none (hnone : ∀ e ∈ m.resetTimeQueue, e.2.instanceId ≠ 0) (time : ℕ)
    (event : InstResetEvent) (hid : event.instanceId = 0) :
    (m.cancelReset time event).resetTimeQueue = m.resetTimeQueue := by
  have hspec := cancelReset_queue m time event
  split at hspec
  · next e _ =>
    exact absurd (hspec.1.trans hid) (hnone e (hspec.2.mem_iff.mpr List.mem_cons_self))
  · exact hspec.2

/-- A reset is forced of the one map that has global resets, or where no map has them. -/
theorem Queued.force (hst : st.Raids) (h : Queued st t)
    (hadmits : Admits st t (.forceGlobalReset mapId difficulty now)) :
    Yields (traced st t (.forceGlobalReset mapId difficulty now)) fun t' =>
      Queued st t' ∧ Erases st t t' (.forceGlobalReset mapId difficulty now) := by
  simp only [traced, Manager.forceGlobalReset, Traced.forcedLog, Erases]
  cases hdown : st.downscaledDifficulty mapId difficulty with
  | none => exact .ok ⟨h, rfl⟩
  | some difficulty =>
    replace hadmits := hadmits difficulty hdown
    simp only
    obtain ⟨hsaved₁, htimes₁⟩ := saved_cancelReset h.saved 0 ⟨1, mapId, difficulty, 0⟩
    have hcancel := cancelReset_queue t.mgr 0 ⟨1, mapId, difficulty, 0⟩
    have hsub := cancelReset_sublist t.mgr 0 ⟨1, mapId, difficulty, 0⟩
    generalize t.mgr.cancelReset 0 ⟨1, mapId, difficulty, 0⟩ = m₁ at *
    obtain ⟨hsaved₂, htimes₂⟩ := saved_cancelReset hsaved₁ 0 ⟨4, mapId, difficulty, 0⟩
    have hagain := fun hnone => cancelReset_of_none (m := m₁) hnone 0 ⟨4, mapId, difficulty, 0⟩ rfl
    generalize m₁.cancelReset 0 ⟨4, mapId, difficulty, 0⟩ = m₂ at *
    by_cases hglobal : st.Global mapId difficulty
    · obtain ⟨resetTime, warnings, -, hevent⟩ := h.each mapId difficulty hglobal
      have hraid : ∀ e ∈ t.mgr.resetTimeQueue, e.2.instanceId = 0 →
          isGlobal mapId difficulty e = true := fun e he hid =>
        isGlobal_iff.mpr ⟨hid, hadmits _ _ (h.raid e he hid)⟩
      have hperm : t.mgr.resetTimeQueue.Perm
          (pending mapId difficulty resetTime warnings :: m₁.resetTimeQueue) := by
        split at hcancel
        · next e _ =>
          have he : e ∈ t.mgr.resetTimeQueue := hcancel.2.mem_iff.mpr List.mem_cons_self
          have hin := List.mem_filter.mpr ⟨he, hraid e he hcancel.1⟩
          rw [hevent.event] at hin
          rw [← List.mem_singleton.mp hin]
          exact hcancel.2
        · exact absurd rfl (hcancel.1 _ hevent.mem)
      have hnone : ∀ e ∈ m₁.resetTimeQueue, e.2.instanceId ≠ 0 := by
        intro e he hid
        have hfilter := hperm.filter (isGlobal mapId difficulty)
        rw [hevent.event, List.filter_cons_of_pos (isGlobal_pending _ _ _ _)] at hfilter
        have hempty := List.nil_perm.mp ((List.perm_cons _).mp hfilter)
        have hin := List.mem_filter.mpr ⟨he, hraid e (hsub.subset he) hid⟩
        rw [hempty] at hin
        cases hin
      have hsame := hagain hnone
      have htime : t.mgr.getResetTimeFor mapId difficulty = resetTime := by
        rw [Manager.getResetTimeFor, hevent.time]
      obtain ⟨hnext, -⟩ := subsequentResetTime_spec hst hglobal now
      have hne := subsequentResetTime_ne_zero hst hglobal now
      obtain ⟨m, hm, hsaved, htimes, hafter⟩ := Manager.resetOrWarnAll_reset hsaved₂
        (hst.instanceable hglobal) hne
      rw [hm, if_neg hne, htime]
      rw [htimes₂, htimes₁] at htimes
      rw [hsame] at hafter
      refine .ok ⟨h.replace hglobal hevent hperm (h.ordered.sublist hsub) hsaved hnext
        (Nat.zero_le _) htimes hafter ⟨rfl, rfl⟩ (.forced hevent.rounds), ?_⟩
      have hnew := (Lib.multimapInsert_perm m₁.resetTimeQueue
        (pending mapId difficulty (st.subsequentResetTime mapId difficulty now) 0)).filter
        fun e => !isGlobal mapId difficulty e
      have hold := hperm.filter fun e => !isGlobal mapId difficulty e
      have hout : ∀ r n l, (pending mapId difficulty r n :: l).filter
          (fun e => !isGlobal mapId difficulty e) =
          l.filter fun e => !isGlobal mapId difficulty e := fun r n l =>
        List.filter_cons_of_neg (by simp [isGlobal_pending])
      rw [hout] at hnew hold
      exact (hafter ▸ hnew).trans hold.symm
    · -- the map has no global resets, so no map has them
      have hnone : ∀ e ∈ t.mgr.resetTimeQueue, e.2.instanceId ≠ 0 := by
        intro e he hid
        have hraid := h.raid e he hid
        obtain ⟨hmap, hdiff⟩ := hadmits _ _ hraid
        rw [hmap, hdiff] at hraid
        exact hglobal hraid
      have hfirst : m₁.resetTimeQueue = t.mgr.resetTimeQueue := by
        split at hcancel
        · next e _ =>
          exact absurd hcancel.1 (hnone e (hcancel.2.mem_iff.mpr List.mem_cons_self))
        · exact hcancel.2
      have hsame : m₂.resetTimeQueue = t.mgr.resetTimeQueue :=
        (hagain (hfirst ▸ hnone)).trans hfirst
      rw [subsequentResetTime_eq_zero hglobal,
        m₂.resetOrWarnAll_untimed (subsequentResetTime_eq_zero hglobal now), if_pos rfl]
      refine .ok ⟨h.edit hsaved₂ (hsame ▸ h.ordered) (htimes₂.trans htimes₁)
        (fun map d => by rw [hsame]) (fun e he => .inl (hsame ▸ he)) fun _ _ _ _ hr => hr, ?_⟩
      rw [hsame]

/-! ## Runs -/

theorem Queued.traced (hst : st.Raids) (h : Queued st t) {op : QueueOp st}
    (hadmits : Admits st t op) :
    Yields (traced st t op) fun t' => Queued st t' ∧ Erases st t t' op := by
  cases op with
  | update now => exact h.update hst now
  | forceGlobalReset mapId difficulty now => exact h.force hst hadmits
  | schedule time mapId difficulty instanceId => exact .ok (h.schedule hadmits)
  | cancel time mapId difficulty instanceId => exact .ok (h.cancel hadmits)
  | others m saved =>
    refine .ok ⟨h.edit ?_ h.ordered rfl (fun _ _ => .refl _) (fun _ he => .inl he)
      fun _ _ _ _ hr => hr, rfl⟩
    have hlinked : Manager.Linked st { m with
        resetTimeByMapDifficulty := t.mgr.resetTimeByMapDifficulty
        resetTimeQueue := t.mgr.resetTimeQueue } :=
      ⟨saved.linked.keys, saved.linked.loaded, saved.linked.registered, saved.linked.players,
        saved.linked.groups, h.saved.linked.timed⟩
    exact ⟨hlinked, saved.mapped⟩

/-- **In a run whose steps all meet their condition, the queue keeps one event for each map with global
resets, and each step takes out what it should.** -/
theorem oneEach_of_admitted (hst : st.Raids) {m : Manager} (start : Queued st ⟨m, []⟩)
    {ops : List (QueueOp st)} (hadmitted : Admitted (traced st) (Admits st) ⟨m, []⟩ ops) :
    ∀ l, l <+: ops → Yields (run (traced st) ⟨m, []⟩ l) fun t => OneEach st t ∧
      ∀ op, l ++ [op] <+: ops → Yields (traced st t op) fun t' => OneEach st t' ∧ Erases st t t' op := by
  have keeps : ∀ t op, Queued st t → Admits st t op → Yields (traced st t op) (Queued st) :=
    fun t op h hadmits => (h.traced hst hadmits).mono fun _ ht' => ht'.1
  rintro l ⟨rest, rfl⟩
  obtain ⟨hfirst, hlast⟩ := hadmitted.append
  obtain ⟨t, ht, hqueued⟩ := Lib.run_keeps_of_admitted keeps start hfirst
  refine ⟨t, ht, hqueued.oneEach, fun op hop => ?_⟩
  obtain ⟨rest', hrest'⟩ := hop
  rw [List.append_assoc] at hrest'
  cases List.append_cancel_left hrest'
  exact (hqueued.traced hst (hlast t ht).1).mono fun _ h => ⟨h.1.oneEach, h.2⟩

/-! ## Quiet raids -/

/-- Raids with a reset each week at four. -/
def raidsOf (maps : List ℕ) : Stores where
  instanceable map := map ∈ maps
  mapDifficulty map d := if map ∈ maps ∧ d = 0 then some (7 * day) else none
  rated delay := delay
  instanceResetTimeHour := 4
  havePlayers _ _ := false

def firstReset : ℕ := 10 * day + 4 * hour

/-- Nobody is in the raids, and no warning of their first reset was given. -/
def quiet (maps : List ℕ) : Manager :=
  { Manager.empty with
    resetTimeByMapDifficulty := fun map d => if map ∈ maps ∧ d = 0 then some firstReset else none
    resetTimeQueue := maps.map fun map => pending map 0 firstReset 0 }

theorem global_raidsOf {maps : List ℕ} {map d : ℕ} (h : (raidsOf maps).Global map d) :
    map ∈ maps ∧ d = 0 := by
  obtain ⟨delay, hdelay, -⟩ := h
  replace hdelay : (if map ∈ maps ∧ d = 0 then some (7 * day) else none) = some delay := hdelay
  split at hdelay
  · next hin => exact hin
  · cases hdelay

theorem raids_raidsOf (maps : List ℕ) : (raidsOf maps).Raids where
  instanceable h := decide_eq_true (global_raidsOf h).1
  spaced := .inl (show 1 ≤ 4 by decide)

theorem queued_quiet {maps : List ℕ} (hnodup : maps.Nodup) :
    Queued (raidsOf maps) ⟨quiet maps, []⟩ where
  saved :=
    { linked :=
        { keys := List.nodup_nil
          loaded := fun h => (nomatch h)
          registered := fun h => (nomatch h)
          players := ⟨fun h => (nomatch h), fun h => (nomatch h)⟩
          groups := ⟨fun h => (nomatch h), fun h => (nomatch h)⟩
          timed := fun {map d delay} hdelay hpos => by
            have hin := global_raidsOf ⟨delay, hdelay, hpos⟩
            show ((if map ∈ maps ∧ d = 0 then _ else _) : Option ℕ).isSome
            rw [if_pos hin]
            rfl }
      mapped := fun h => (nomatch h) }
  ordered := List.pairwise_map.mpr (List.pairwise_of_forall fun _ _ => Nat.le_refl _)
  each map d hglobal := by
    obtain ⟨hin, rfl⟩ := global_raidsOf hglobal
    refine ⟨firstReset, 0, ⟨by decide, .inl (show 1 ≤ 4 by decide)⟩, Nat.zero_le _, if_pos ⟨hin, rfl⟩, ?_,
      .start _ _⟩
    have hone : (fun map' => isGlobal map 0 (pending map' 0 firstReset 0)) = fun map' => map' == map := by
      funext map'
      simp [isGlobal, pending]
    show (maps.map fun map => pending map 0 firstReset 0).filter (isGlobal map 0) = _
    rw [List.filter_map, Function.comp_def, hone, List.filter_beq,
      List.count_eq_one_of_mem hnodup hin]
    rfl
  raid e he _ := by
    obtain ⟨map, hin, rfl⟩ := List.mem_map.mp he
    exact ⟨7 * day, if_pos ⟨hin, rfl⟩, by decide⟩
  single e he hid := by
    obtain ⟨map, -, rfl⟩ := List.mem_map.mp he
    exact absurd rfl hid

/-- An instance comes and goes in the queue, the one raid is reset by force, and then in time. -/
theorem oneEach_of_admitted_quiet : (raidsOf [532]).Raids ∧ ∀ l,
    l <+: [.schedule 5000 36 0 7, .cancel 5000 36 0 7, .forceGlobalReset 532 0 900000,
      .update 2000000] →
    Yields (run (traced (raidsOf [532])) ⟨quiet [532], []⟩ l) fun t => OneEach (raidsOf [532]) t ∧
      ∀ op, l ++ [op] <+: [.schedule 5000 36 0 7, .cancel 5000 36 0 7,
          .forceGlobalReset 532 0 900000, .update 2000000] →
        Yields (traced (raidsOf [532]) t op) fun t' =>
          OneEach (raidsOf [532]) t' ∧ Erases (raidsOf [532]) t t' op := by
  refine ⟨raids_raidsOf _, ?_⟩
  exact oneEach_of_admitted (raids_raidsOf _) (queued_quiet (by decide))
    ⟨⟨by decide, by decide⟩,
      ⟨by decide, by decide, fun e he => by
        cases he
        exact ⟨rfl, rfl⟩⟩,
      fun d hd map d' hglobal => by
        cases hd
        exact (global_raidsOf hglobal).imp List.mem_singleton.mp id,
      trivial, trivial⟩

/-- A reset that is forced of one raid takes the event of the other one out, too. -/
theorem forced_loses_event :
    (raidsOf [532, 534]).Raids ∧ Queued (raidsOf [532, 534]) ⟨quiet [532, 534], []⟩ ∧
      ¬ Yields (traced (raidsOf [532, 534]) ⟨quiet [532, 534], []⟩
        (.forceGlobalReset 532 0 900000)) (OneEach (raidsOf [532, 534])) := by
  refine ⟨raids_raidsOf _, queued_quiet (by decide), ?_⟩
  rintro ⟨t, ht, hone⟩
  have hlost : (traced (raidsOf [532, 534]) ⟨quiet [532, 534], []⟩
      (.forceGlobalReset 532 0 900000)).map
      (fun t => t.mgr.resetTimeQueue.filter (isGlobal 534 0)) = .ok [] := by
    decide +kernel
  rw [ht] at hlost
  obtain ⟨r, n, hevent⟩ := hone 534 0 ⟨7 * day, rfl, by decide⟩
  exact List.cons_ne_nil _ _ (hevent.event.symm.trans (Except.ok.inj hlost))

end Sunstrider.Instances
