import Sunstrider.Maps.Respawn

/-!
# The respawn stores

What each function of the respawn stores keeps (`Consistent`): the queue and the two maps hold the same
objects, all of them are there, and the queue is in order. While an object is loaded, the info of its
spawn is in none of them any more but not yet deleted; it is `out`.

`Leads` says what a call can do: it leaves the infos of the spawns it avoids, and makes none due that was
not. The specifications of the calls follow the calls that are made inside them (`call_spec`).
-/

namespace Sunstrider.Maps.Map

open Lib (MutableHeap Yields)

variable {H : MutableHeap ℕ Rank} {s t : Map H} {out : Option ℕ} {a : ℕ} {ri : RespawnInfo}

/-! ## The invariant -/

/-- The queue and the two maps hold the same objects, one for each spawn, and all that exist but the one
that is `out`. -/
structure Stored (out : Option ℕ) (s : Map H) : Prop where
  queue : ∀ a, a ∈ H.elems s.respawnTimes ↔ (s.infos a).isSome ∧ some a ≠ out
  mapped : ∀ a ri, s.infos a = some ri → some a ≠ out → s.respawnMap ri.type ri.spawnId = some a
  known : ∀ type spawnId a, s.respawnMap type spawnId = some a →
    some a ≠ out ∧ ∃ ri, s.infos a = some ri ∧ ri.type = type ∧ ri.spawnId = spawnId
  fresh : ∀ a, (s.infos a).isSome → a < s.nextInfo
  outThere : ∀ a, out = some a → (s.infos a).isSome

structure Consistent (out : Option ℕ) (s : Map H) : Prop extends Stored out s where
  ordered : H.Ordered s.rank s.respawnTimes
  times : ∀ a ri, s.infos a = some ri → ri.respawnTime ≠ 0

theorem consistent_new : (new : Map H).Consistent none where
  queue a := by
    show a ∈ H.elems H.empty ↔ _
    rw [H.elems_empty]
    exact ⟨fun h => absurd h (Finset.notMem_empty a), fun h => by cases h.1⟩
  mapped a ri h := by cases h
  known type spawnId a h := by cases h
  fresh a h := by cases h
  outThere a h := by cases h
  ordered := H.ordered_empty _
  times a ri h := by cases h

theorem rank_eq (h : s.infos a = some ri) : s.rank a = ri.rank := by
  unfold rank
  rw [h]
  rfl

theorem read_eq (h : s.infos a = some ri) : s.read a = .ok ri := by
  unfold read
  rw [h]

variable {ri' : RespawnInfo}

theorem eq_of_rank {ri : RespawnInfo} (h : ri.rank = ri'.rank) :
    ri.respawnTime = ri'.respawnTime ∧ ri.type = ri'.type ∧ ri.spawnId = ri'.spawnId := by
  obtain ⟨htime, hrest⟩ := Prod.mk.inj (toLex.injective h)
  obtain ⟨hid, htype⟩ := Prod.mk.inj (toLex.injective hrest)
  refine ⟨OrderDual.toDual.injective htime, ?_, hid⟩
  cases htype' : ri.type <;> cases htype'' : ri'.type <;> rw [htype', htype''] at htype
  · cases htype
  · cases htype

theorem time_le_of_rank_le {ri : RespawnInfo} (h : ri.rank ≤ ri'.rank) :
    ri'.respawnTime ≤ ri.respawnTime := by
  rcases Prod.Lex.toLex_le_toLex.mp h with hlt | ⟨heq, -⟩
  · exact (OrderDual.toDual_lt_toDual.mp hlt).le
  · exact (OrderDual.toDual.injective heq).ge

theorem rank_le_of_time_lt {ri : RespawnInfo} (h : ri'.respawnTime < ri.respawnTime) :
    ri.rank ≤ ri'.rank :=
  Prod.Lex.toLex_le_toLex.mpr (.inl (OrderDual.toDual_lt_toDual.mpr h))

/-! ## What a call can do -/

/-- A change of the stores that leaves the infos of the spawns that meet `Avoids` and the one that is out,
and after which no info is due by a time that meets `Later` that was not there before. -/
structure Leads (Avoids : SpawnObjectType → ℕ → Prop) (Later : ℕ → Prop) (out : Option ℕ)
    (s t : Map H) : Prop where
  others : ∀ a ri, s.infos a = some ri → Avoids ri.type ri.spawnId ∨ some a = out →
    t.infos a = some ri
  due : ∀ now, Later now → ∀ a ri, t.infos a = some ri → ri.respawnTime ≤ now → s.infos a = some ri

theorem Leads.refl (Avoids : SpawnObjectType → ℕ → Prop) (Later : ℕ → Prop) (s : Map H) :
    Leads Avoids Later out s s := ⟨fun _ _ h _ => h, fun _ _ _ _ h _ => h⟩

variable {Avoids Avoids' : SpawnObjectType → ℕ → Prop} {Later Later' : ℕ → Prop}

theorem Leads.trans {u : Map H} (h : Leads Avoids Later out s t) (h' : Leads Avoids' Later' out t u)
    :
    Leads (fun type id => Avoids type id ∧ Avoids' type id) (fun now => Later now ∧ Later' now) out s u
    where
  others a ri ha hor :=
    h'.others a ri (h.others a ri ha (hor.imp_left And.left)) (hor.imp_left And.right)
  due now hlater a ri ha hdue := h.due now hlater.1 a ri (h'.due now hlater.2 a ri ha hdue) hdue

theorem Leads.mono (h : Leads Avoids Later out s t)
    (havoids : ∀ type id, Avoids' type id → Avoids type id)
    (hlater : ∀ now, Later' now → Later now) :
    Leads Avoids' Later' out s t where
  others a ri ha hor := h.others a ri ha (hor.imp_left (havoids _ _))
  due now hl := h.due now (hlater now hl)

/-! ## Deleting -/

/-- An info is deleted from the queue and from its map. -/
structure Deleted (s : Map H) (a : ℕ) (ri : RespawnInfo) (t : Map H) : Prop where
  infos : t.infos = Function.update s.infos a none
  nextInfo : t.nextInfo = s.nextInfo
  queue : t.respawnTimes = H.erase s.rank s.respawnTimes a
  map : t.respawnMap = (s.eraseFromMap ri.type ri.spawnId).respawnMap

theorem eraseFromMap_apply (s : Map H) (type : SpawnObjectType) (spawnId : ℕ) (type' : SpawnObjectType)
    (spawnId' : ℕ) : (s.eraseFromMap type spawnId).respawnMap type' spawnId' =
      if type' = type ∧ spawnId' = spawnId then none else s.respawnMap type' spawnId' := by
  show Function.update s.respawnMap type (Function.update (s.respawnMap type) spawnId none) type'
    spawnId' = _
  by_cases htype : type' = type
  · subst htype
    rw [Function.update_self, Function.update_apply]
    simp
  · rw [Function.update_of_ne htype]
    simp [htype]

theorem deleted_deleteRespawnInfo (hs : s.Stored out) (ha : s.infos a = some ri)
    (hout : some a ≠ out) : Yields (s.deleteRespawnInfo a) (Deleted s a ri) := by
  have hmapped := hs.mapped a ri ha hout
  unfold deleteRespawnInfo read
  rw [ha]
  show Yields (if (s.respawnMap ri.type ri.spawnId).isNone then Except.error Fault.inconsistent
    else Except.ok _) _
  rw [hmapped, Option.isNone_some, if_neg Bool.false_ne_true]
  exact .ok ⟨rfl, rfl, rfl, rfl⟩

theorem Deleted.leads (h : Deleted s a ri t) (ha : s.infos a = some ri) (hout : some a ≠ out) :
    Leads (fun type id => ¬ (type = ri.type ∧ id = ri.spawnId)) (fun _ => True) out s t where
  others b rb hb hor := by
    rw [h.infos, Function.update_of_ne]
    · exact hb
    · rintro rfl
      rw [ha] at hb
      obtain rfl := Option.some.inj hb
      rcases hor with hne | heq
      · exact hne ⟨rfl, rfl⟩
      · exact hout heq
  due _ _ b rb hb _ := by
    rw [h.infos] at hb
    by_cases hne : b = a
    · rw [hne, Function.update_self] at hb
      cases hb
    · rwa [Function.update_of_ne hne] at hb

/-- Without the info, the stores are consistent if they were but for its time. -/
theorem Deleted.consistent (hH : H.ErasesByHandle) (h : Deleted s a ri t) (hs : s.Stored out)
    (ha : s.infos a = some ri) (hout : some a ≠ out) {old : ℕ → Rank}
    (hordered : H.Ordered old s.respawnTimes)
    (hold : ∀ b ∈ H.elems s.respawnTimes, b ≠ a → s.rank b = old b)
    (htimes : ∀ b rb, s.infos b = some rb → b ≠ a → rb.respawnTime ≠ 0) : t.Consistent out := by
  have hinfos : ∀ b rb, t.infos b = some rb → b ≠ a ∧ s.infos b = some rb := by
    intro b rb hb
    rw [h.infos] at hb
    by_cases hne : b = a
    · rw [hne, Function.update_self] at hb
      cases hb
    · rw [Function.update_of_ne hne] at hb
      exact ⟨hne, hb⟩
  have hmapped := hs.mapped a ri ha hout
  refine ⟨⟨fun b => ?_, fun b rb hb hb' => ?_, fun type id b hb => ?_, fun b hb => ?_, fun b hb => ?_⟩,
    ?_, ?_⟩
  · rw [h.queue, H.elems_erase, Finset.mem_erase, hs.queue, h.infos]
    by_cases hne : b = a
    · subst hne
      simp
    · rw [Function.update_of_ne hne]
      exact ⟨fun hb => hb.2, fun hb => ⟨hne, hb⟩⟩
  · obtain ⟨hne, hb⟩ := hinfos b rb hb
    have hbmap := hs.mapped b rb hb hb'
    rw [h.map, eraseFromMap_apply, if_neg]
    · exact hbmap
    · rintro ⟨htype, hid⟩
      rw [htype, hid, hmapped] at hbmap
      exact hne (Option.some.inj hbmap).symm
  · rw [h.map, eraseFromMap_apply] at hb
    split at hb
    · cases hb
    · next hne =>
      obtain ⟨hbout, rb, hrb, rfl, rfl⟩ := hs.known type id b hb
      refine ⟨hbout, rb, ?_, rfl, rfl⟩
      rw [h.infos, Function.update_of_ne]
      · exact hrb
      · rintro rfl
        rw [ha] at hrb
        obtain rfl := Option.some.inj hrb
        exact hne ⟨rfl, rfl⟩
  · obtain ⟨rb, hrb⟩ := Option.isSome_iff_exists.mp hb
    rw [h.nextInfo]
    exact hs.fresh b (Option.isSome_iff_exists.mpr ⟨rb, (hinfos b rb hrb).2⟩)
  · rw [h.infos, Function.update_of_ne]
    · exact hs.outThere b hb
    · rintro rfl
      exact hout hb.symm
  · have herased : H.Ordered s.rank t.respawnTimes := by
      rw [h.queue]
      exact hH old s.rank s.respawnTimes a hordered hold
    refine H.ordered_congr s.rank t.rank t.respawnTimes (fun b hb => ?_) herased
    rw [h.queue, H.elems_erase, Finset.mem_erase] at hb
    unfold rank
    rw [h.infos, Function.update_of_ne hb.1]
  · intro b rb hb
    obtain ⟨hne, hb⟩ := hinfos b rb hb
    exact htimes b rb hb hne

theorem Consistent.delete (hH : H.ErasesByHandle) (hs : s.Consistent out) (ha : s.infos a = some ri)
    (hout : some a ≠ out) : Yields (s.deleteRespawnInfo a) fun t => Deleted s a ri t ∧
      t.Consistent out := by
  refine (deleted_deleteRespawnInfo hs.toStored ha hout).mono fun t ht => ⟨ht, ?_⟩
  exact ht.consistent hH hs.toStored ha hout hs.ordered (fun _ _ _ => rfl) fun b rb hb _ =>
    hs.times b rb hb

/-! ## Saving -/

theorem insert_spec (hs : s.Consistent out) {info : RespawnInfo}
    (hfree : s.respawnMap info.type info.spawnId = none) (htime : info.respawnTime ≠ 0) :
    Yields (s.insert info) fun t => t.infos = Function.update s.infos s.nextInfo (some info) ∧
      t.respawnMap info.type info.spawnId = some s.nextInfo ∧ t.Consistent out := by
  have hnew : s.infos s.nextInfo = none := by
    by_contra hsome
    exact lt_irrefl _ (hs.fresh _ (Option.isSome_iff_ne_none.mpr hsome))
  have hnewOut : some s.nextInfo ≠ out := fun heq =>
    lt_irrefl _ (hs.fresh _ (hs.outThere _ heq.symm))
  have hnot : s.nextInfo ∉ H.elems s.respawnTimes := fun hmem => by
    have hsome := ((hs.queue s.nextInfo).mp hmem).1
    rw [hnew] at hsome
    cases hsome
  unfold insert
  show Yields (if (s.respawnMap info.type info.spawnId).isSome then Except.error Fault.desync
    else Except.ok _) _
  rw [hfree, Option.isSome_none, if_neg Bool.false_ne_true]
  refine .ok ⟨rfl, ?_, ⟨fun b => ?_, fun b rb hb hbout => ?_, fun type id b hb => ?_, fun b hb => ?_,
    fun b hb => ?_⟩, ?_, fun b rb hb => ?_⟩
  · dsimp only
    rw [Function.update_self, Function.update_self]
  · dsimp only
    rw [H.elems_push, Finset.mem_insert, hs.queue]
    by_cases hne : b = s.nextInfo
    · subst hne
      rw [Function.update_self]
      exact ⟨fun _ => ⟨rfl, hnewOut⟩, fun _ => .inl rfl⟩
    · rw [Function.update_of_ne hne]
      exact ⟨fun h => h.resolve_left hne, .inr⟩
  · dsimp only at hb ⊢
    by_cases hne : b = s.nextInfo
    · rw [hne, Function.update_self] at hb
      obtain rfl := Option.some.inj hb
      rw [Function.update_self, Function.update_self, hne]
    · rw [Function.update_of_ne hne] at hb
      have hmapped := hs.mapped b rb hb hbout
      by_cases htype : rb.type = info.type
      · have hid : rb.spawnId ≠ info.spawnId := by
          intro hid
          rw [htype, hid, hfree] at hmapped
          cases hmapped
        rw [htype, Function.update_self, Function.update_of_ne hid, ← htype]
        exact hmapped
      · rw [Function.update_of_ne htype]
        exact hmapped
  · dsimp only at hb ⊢
    by_cases hspawn : type = info.type ∧ id = info.spawnId
    · obtain ⟨rfl, rfl⟩ := hspawn
      rw [Function.update_self, Function.update_self] at hb
      obtain rfl := Option.some.inj hb
      exact ⟨hnewOut, info, Function.update_self .., rfl, rfl⟩
    · have hb : s.respawnMap type id = some b := by
        by_cases htype : type = info.type
        · subst htype
          rw [Function.update_self, Function.update_of_ne fun hid => hspawn ⟨rfl, hid⟩] at hb
          exact hb
        · rwa [Function.update_of_ne htype] at hb
      obtain ⟨hbout, rb, hrb, htype, hid⟩ := hs.known type id b hb
      refine ⟨hbout, rb, ?_, htype, hid⟩
      rw [Function.update_of_ne]
      · exact hrb
      · rintro rfl
        rw [hnew] at hrb
        cases hrb
  · dsimp only at hb ⊢
    by_cases hne : b = s.nextInfo
    · rw [hne]
      exact Nat.lt_succ_self _
    · rw [Function.update_of_ne hne] at hb
      exact (hs.fresh b hb).trans (Nat.lt_succ_self _)
  · dsimp only
    rw [Function.update_of_ne]
    · exact hs.outThere b hb
    · rintro rfl
      exact hnewOut hb.symm
  · -- the keys of the others are as before
    refine H.ordered_push _ _ _ (H.ordered_congr s.rank _ _ (fun b hb => ?_) hs.ordered) hnot
    unfold rank
    dsimp only
    rw [Function.update_of_ne]
    rintro rfl
    exact hnot hb
  · dsimp only at hb
    by_cases hne : b = s.nextInfo
    · rw [hne, Function.update_self] at hb
      obtain rfl := Option.some.inj hb
      exact htime
    · rw [Function.update_of_ne hne] at hb
      exact hs.times b rb hb

theorem Deleted.respawnMap_self (h : Deleted s a ri t) : t.respawnMap ri.type ri.spawnId = none := by
  rw [h.map, eraseFromMap_apply, if_pos ⟨rfl, rfl⟩]

/-- What is stored for a spawn after a save. -/
def savedTime (old new : ℕ) (replace : Bool) : ℕ :=
  if replace then new else if old = 0 then new else min old new

/-- What a save or a removal does, for the spawn with the time that it has afterwards. -/
structure Saved (out : Option ℕ) (s : Map H) (type : SpawnObjectType) (spawnId time : ℕ)
    (Later : ℕ → Prop) (t : Map H) : Prop where
  consistent : t.Consistent out
  leads : Leads (fun type' id => ¬ (type' = type ∧ id = spawnId)) Later out s t
  stored : t.respawnTime type spawnId = time

theorem removeRespawnTime_spec (hH : H.ErasesByHandle) (hs : s.Consistent out) (type : SpawnObjectType)
    (spawnId : ℕ) :
    Yields (s.removeRespawnTime type spawnId) (Saved out s type spawnId 0 fun _ => True) := by
  unfold removeRespawnTime
  cases hmap : s.respawnMap type spawnId with
  | none =>
    refine .ok ⟨hs, .refl _ _ s, ?_⟩
    unfold respawnTime
    rw [hmap]
    rfl
  | some a =>
    obtain ⟨hout, ri, ha, rfl, rfl⟩ := hs.known type spawnId a hmap
    refine (hs.delete hH ha hout).mono fun t ht => ⟨ht.2, ht.1.leads ha hout, ?_⟩
    unfold respawnTime
    rw [ht.1.respawnMap_self]
    rfl

theorem insert_saved (hs : s.Consistent out) {info : RespawnInfo}
    (hfree : s.respawnMap info.type info.spawnId = none) (htime : info.respawnTime ≠ 0) :
    Yields (s.insert info) (Saved out s info.type info.spawnId info.respawnTime
      fun now => now < info.respawnTime) := by
  refine (insert_spec hs hfree htime).mono ?_
  rintro t ⟨hinfos, hmap, hcons⟩
  have hnew : ∀ b rb, s.infos b = some rb → b ≠ s.nextInfo := by
    rintro b rb hb rfl
    exact lt_irrefl _ (hs.fresh _ (Option.isSome_iff_exists.mpr ⟨rb, hb⟩))
  refine ⟨hcons, ⟨fun b rb hb _ => ?_, fun now hlater b rb hb hdue => ?_⟩, ?_⟩
  · rw [hinfos, Function.update_of_ne (hnew b rb hb)]
    exact hb
  · rw [hinfos] at hb
    by_cases hne : b = s.nextInfo
    · rw [hne, Function.update_self] at hb
      obtain rfl := Option.some.inj hb
      exact absurd hlater (not_lt.mpr hdue)
    · rwa [Function.update_of_ne hne] at hb
  · unfold respawnTime
    rw [hmap, Option.bind_some, hinfos, Function.update_self]
    rfl

/-- `SaveRespawnTime`: **without replacing, the earlier time stays.** -/
theorem saveRespawnTime_spec (hH : H.ErasesByHandle) (hs : s.Consistent out) (info : RespawnInfo)
    (replace : Bool) :
    Yields (s.saveRespawnTime info replace) fun t => t.Consistent out ∧
      Leads (fun type id => ¬ (type = info.type ∧ id = info.spawnId))
        (fun now => info.respawnTime ≠ 0 → now < info.respawnTime) out s t ∧
      (info.spawnId ≠ 0 → t.respawnTime info.type info.spawnId =
        savedTime (s.respawnTime info.type info.spawnId) info.respawnTime replace) := by
  unfold saveRespawnTime
  split
  next hzero =>
    refine (removeRespawnTime_spec hH hs info.type info.spawnId).mono fun t ht => ?_
    refine ⟨ht.consistent, ht.leads.mono (fun _ _ h => h) fun _ _ => trivial, fun _ => ?_⟩
    rw [ht.stored, hzero]
    unfold savedTime
    split
    · rfl
    · split <;> simp
  next hnonzero =>
    unfold addRespawnInfo
    split
    next hspawn => exact .ok ⟨hs, .refl _ _ s, fun h => absurd hspawn h⟩
    next hspawn =>
      cases hmap : s.respawnMap info.type info.spawnId with
      | none =>
        refine (insert_saved hs hmap hnonzero).mono fun t ht => ?_
        refine ⟨ht.consistent, ht.leads.mono (fun _ _ h => h) fun _ h => h hnonzero, fun _ => ?_⟩
        have hold : s.respawnTime info.type info.spawnId = 0 := by
          unfold respawnTime
          rw [hmap]
          rfl
        rw [ht.stored, hold]
        unfold savedTime
        simp
      | some existing =>
        obtain ⟨hout, old, hexisting, htype, hid⟩ := hs.known _ _ existing hmap
        have hold : s.respawnTime info.type info.spawnId = old.respawnTime := by
          unfold respawnTime
          rw [hmap, Option.bind_some, hexisting]
          rfl
        have holdTime := hs.times existing old hexisting
        show Yields (s.read existing >>= _) _
        rw [read_eq hexisting]
        show Yields (if replace || info.respawnTime < old.respawnTime then _ else Except.ok s) _
        split
        next hnew =>
          refine (hs.delete hH hexisting hout).bind fun t ⟨hdel, ht⟩ => ?_
          have hfree : t.respawnMap info.type info.spawnId = none := by
            rw [← htype, ← hid]
            exact hdel.respawnMap_self
          refine (insert_saved ht hfree hnonzero).mono fun u hu => ⟨hu.consistent, ?_, fun _ => ?_⟩
          · refine ((hdel.leads hexisting hout).trans hu.leads).mono (fun type id h => ⟨?_, h⟩)
              fun now h => ⟨trivial, h hnonzero⟩
            rw [htype, hid]
            exact h
          · rw [hu.stored, hold]
            unfold savedTime
            rw [Bool.or_eq_true, decide_eq_true_iff] at hnew
            split
            · rfl
            · next hreplace =>
              rw [min_eq_right (hnew.resolve_left hreplace).le]
        next hkeep =>
          rw [Bool.or_eq_true, decide_eq_true_iff, not_or, not_lt] at hkeep
          refine .ok ⟨hs, .refl _ _ s, fun _ => ?_⟩
          rw [hold]
          unfold savedTime
          rw [if_neg hkeep.1, if_neg holdTime, min_eq_left hkeep.2]

/-! ## Calls -/

mutual

/-- The call is about other spawns only, and so are those inside it. -/
def avoids (type : SpawnObjectType) (spawnId : ℕ) : Call → Bool
  | .save type' spawnId' _ _ _ _ _ => !(type' = type && spawnId' = spawnId)
  | .remove type' spawnId' => !(type' = type && spawnId' = spawnId)
  | .respawn type' spawnId' _ _ _ _ pool load =>
    !(type' = type && spawnId' = spawnId) && avoidsAll type spawnId pool && avoidsAll type spawnId load

def avoidsAll (type : SpawnObjectType) (spawnId : ℕ) : List Call → Bool
  | [] => true
  | c :: cs => avoids type spawnId c && avoidsAll type spawnId cs

end

mutual

/-- The call saves later times only, and so do those inside it. -/
def savesAfter (now : ℕ) : Call → Bool
  | .save _ _ _ respawnTime _ _ _ => respawnTime = 0 || now < respawnTime
  | .remove _ _ => true
  | .respawn _ _ _ _ _ _ pool load => savesAllAfter now pool && savesAllAfter now load

def savesAllAfter (now : ℕ) : List Call → Bool
  | [] => true
  | c :: cs => savesAfter now c && savesAllAfter now cs

end

mutual

/-- While the pool system updates a spawn, it is called back for other spawns only. -/
def proper : Call → Bool
  | .save _ _ _ _ _ _ _ => true
  | .remove _ _ => true
  | .respawn type spawnId _ _ _ _ pool load =>
    avoidsAll type spawnId pool && allProper pool && allProper load

def allProper : List Call → Bool
  | [] => true
  | c :: cs => proper c && allProper cs

end

/-- What every call does with consistent stores. -/
def Keeps (out : Option ℕ) (Avoids : SpawnObjectType → ℕ → Prop) (Later : ℕ → Prop)
    (f : Map H → Except Fault (Map H)) : Prop :=
  ∀ s, s.Consistent out → Yields (f s) fun t => t.Consistent out ∧ Leads Avoids Later out s t

/-- The info of a spawn that may not respawn: its time is gone, and the queue does not know. -/
def zeroed (s : Map H) (a : ℕ) (ri : RespawnInfo) : Map H :=
  { s with infos := Function.update s.infos a (some { ri with respawnTime := 0 }) }

theorem checkRespawn_spec (hs : s.Consistent out) (ha : s.infos a = some ri)
    {active pooled present : Bool} {update : Map H → Except Fault (Map H)}
    (hupdate : Keeps out Avoids Later update) (havoids : Avoids ri.type ri.spawnId) :
    Yields (s.checkRespawn a active pooled present update) fun r =>
      (r.2 = true ∧ r.1 = s) ∨
      (r.2 = false ∧ ∃ u, u.Consistent out ∧ Leads Avoids Later out s u ∧ u.infos a = some ri ∧
        (u = s ∨ (active = true ∧ pooled = true ∧ update s = .ok u)) ∧ r.1 = u.zeroed a ri) := by
  have hzero : ∀ u : Map H, u.infos a = some ri → u.writeTime a 0 = .ok (u.zeroed a ri) := by
    intro u hu
    unfold writeTime
    rw [read_eq hu]
    rfl
  unfold checkRespawn
  cases active with
  | false =>
    show Yields (s.writeTime a 0 >>= _) _
    rw [hzero s ha]
    exact .ok (.inr ⟨rfl, s, hs, .refl _ _ s, ha, .inl rfl, rfl⟩)
  | true =>
    cases pooled with
    | false =>
      cases present with
      | false => exact .ok (.inl ⟨rfl, rfl⟩)
      | true =>
        show Yields (s.writeTime a 0 >>= _) _
        rw [hzero s ha]
        exact .ok (.inr ⟨rfl, s, hs, .refl _ _ s, ha, .inl rfl, rfl⟩)
    | true =>
      obtain ⟨u, hu, hcons, hleads⟩ := hupdate s hs
      have hua := hleads.others a ri ha (.inl havoids)
      show Yields (update s >>= _) _
      rw [hu]
      show Yields (u.writeTime a 0 >>= _) _
      rw [hzero u hua]
      exact .ok (.inr ⟨rfl, u, hcons, hleads, hua, .inr ⟨rfl, rfl, rfl⟩, rfl⟩)

theorem Consistent.zeroed (hs : s.Consistent out) (ha : s.infos a = some ri) :
    (s.zeroed a ri).Stored out := by
  have hinfos : ∀ b rb, (s.zeroed a ri).infos b = some rb →
      ∃ rb', s.infos b = some rb' ∧ rb'.type = rb.type ∧ rb'.spawnId = rb.spawnId := by
    intro b rb hb
    have hb : Function.update s.infos a _ b = some rb := hb
    by_cases hne : b = a
    · rw [hne, Function.update_self] at hb
      obtain rfl := Option.some.inj hb
      exact ⟨ri, hne ▸ ha, rfl, rfl⟩
    · rw [Function.update_of_ne hne] at hb
      exact ⟨rb, hb, rfl, rfl⟩
  have hsome : ∀ b, ((s.zeroed a ri).infos b).isSome ↔ (s.infos b).isSome := by
    intro b
    show (Function.update s.infos a _ b).isSome = true ↔ _
    by_cases hne : b = a
    · rw [hne, Function.update_self, ha]
      simp
    · rw [Function.update_of_ne hne]
  refine ⟨fun b => ?_, fun b rb hb hout => ?_, fun type id b hb => ?_, fun b hb => ?_, fun b hb => ?_⟩
  · rw [hsome]
    exact hs.queue b
  · obtain ⟨rb', hb', htype, hid⟩ := hinfos b rb hb
    rw [← htype, ← hid]
    exact hs.mapped b rb' hb' hout
  · obtain ⟨hout, rb, hrb, htype, hid⟩ := hs.known type id b hb
    refine ⟨hout, ?_⟩
    show ∃ ri', Function.update s.infos a _ b = some ri' ∧ _
    by_cases hne : b = a
    · subst hne
      rw [ha] at hrb
      obtain rfl := Option.some.inj hrb
      exact ⟨_, Function.update_self .., htype, hid⟩
    · rw [Function.update_of_ne hne]
      exact ⟨rb, hrb, htype, hid⟩
  · exact hs.fresh b ((hsome b).mp hb)
  · exact (hsome b).mpr (hs.outThere b hb)

theorem Deleted.zeroed (hH : H.ErasesByHandle) (hs : s.Consistent out) (ha : s.infos a = some ri)
    (hout : some a ≠ out) (ht : Deleted (s.zeroed a ri) a { ri with respawnTime := 0 } t) :
    t.Consistent out ∧
      Leads (fun type id => ¬ (type = ri.type ∧ id = ri.spawnId)) (fun _ => True) out s t := by
  have hstored := hs.zeroed ha
  have hza : (s.zeroed a ri).infos a = some { ri with respawnTime := 0 } := Function.update_self ..
  have hother : ∀ b, b ≠ a → (s.zeroed a ri).infos b = s.infos b := fun b hne =>
    Function.update_of_ne hne ..
  refine ⟨?_, ?_, ?_⟩
  · refine ht.consistent hH hstored hza hout hs.ordered (fun b _ hne => ?_) fun b rb hb hne => ?_
    · unfold rank
      rw [hother b hne]
    · rw [hother b hne] at hb
      exact hs.times b rb hb
  · intro b rb hb hor
    have hne : b ≠ a := by
      rintro rfl
      rw [ha] at hb
      obtain rfl := Option.some.inj hb
      rcases hor with hne | heq
      · exact hne ⟨rfl, rfl⟩
      · exact hout heq
    rw [ht.infos, Function.update_of_ne hne, hother b hne]
    exact hb
  · intro _ _ b rb hb _
    rw [ht.infos] at hb
    by_cases hne : b = a
    · rw [hne, Function.update_self] at hb
      cases hb
    · rwa [Function.update_of_ne hne, hother b hne] at hb

theorem respawn_spec (hH : H.ErasesByHandle) (hs : s.Consistent out) (ha : s.infos a = some ri)
    (hout : some a ≠ out) {force active pooled present : Bool}
    {update load : Map H → Except Fault (Map H)} (hupdate : Keeps out Avoids Later update)
    (hload : Keeps out Avoids' Later' load) (havoids : Avoids ri.type ri.spawnId) :
    Yields (s.respawn a force active pooled present update load) fun t => t.Consistent out ∧
      Leads (fun type id => ¬ (type = ri.type ∧ id = ri.spawnId) ∧ Avoids type id ∧ Avoids' type id)
        (fun now => Later now ∧ Later' now) out s t := by
  have hallowed : Yields (s.deleteRespawnInfo a >>= load) fun t => t.Consistent out ∧
      Leads (fun type id => ¬ (type = ri.type ∧ id = ri.spawnId) ∧ Avoids type id ∧ Avoids' type id)
        (fun now => Later now ∧ Later' now) out s t := by
    refine (hs.delete hH ha hout).bind fun t ⟨hdel, ht⟩ => (hload t ht).mono fun u hu => ⟨hu.1, ?_⟩
    exact ((hdel.leads ha hout).trans hu.2).mono (fun _ _ h => ⟨h.1, h.2.2⟩) fun _ h => ⟨trivial, h.2⟩
  unfold respawn
  cases force with
  | true =>
    show Yields (s.read a >>= _) _
    rw [read_eq ha]
    exact hallowed
  | false =>
    refine (checkRespawn_spec hs ha hupdate havoids).bind ?_
    rintro ⟨t, allowed⟩ (⟨rfl, rfl⟩ | ⟨rfl, u, hu, hleads, hua, -, rfl⟩)
    · show Yields (t.read a >>= _) _
      rw [read_eq ha]
      exact hallowed
    · have hza : (u.zeroed a ri).infos a = some { ri with respawnTime := 0 } := Function.update_self ..
      show Yields ((u.zeroed a ri).read a >>= _) _
      rw [read_eq hza]
      refine (deleted_deleteRespawnInfo (hu.zeroed hua) hza hout).mono fun v hv => ?_
      obtain ⟨hcons, hleads'⟩ := hv.zeroed hH hu hua hout
      exact ⟨hcons, (hleads.trans hleads').mono (fun _ _ h => ⟨h.2.1, h.1⟩) fun _ h => ⟨h.1, trivial⟩⟩

mutual

/-- **Every call keeps the stores consistent**, by induction on the calls inside it. -/
theorem call_spec (hH : H.ErasesByHandle) : ∀ c : Call, proper c = true →
    Keeps (H := H) out (fun type id => avoids type id c = true) (fun now => savesAfter now c = true)
      fun s => s.call c
  | .save type spawnId entry time zoneId gridId replace, _ => fun s hs => by
    have hsave := saveRespawnTime_spec hH hs ⟨type, spawnId, entry, time, gridId, zoneId⟩ replace
    unfold call
    refine hsave.mono fun t ht => ⟨ht.1, ht.2.1.mono (fun type' id h => ?_) fun now h hne => ?_⟩
    · rintro ⟨rfl, rfl⟩
      unfold avoids at h
      simp at h
    · unfold savesAfter at h
      simpa [hne] using h
  | .remove type spawnId, _ => fun s hs => by
    have hremove := removeRespawnTime_spec hH hs type spawnId
    unfold call
    refine hremove.mono fun t ht => ⟨ht.consistent, ht.leads.mono (fun type' id h => ?_) fun _ _ => trivial⟩
    rintro ⟨rfl, rfl⟩
    unfold avoids at h
    simp at h
  | .respawn type spawnId force active pooled present pool load, hproper => fun s hs => by
    unfold proper at hproper
    rw [Bool.and_eq_true, Bool.and_eq_true] at hproper
    have hpool := calls_spec hH pool hproper.1.2
    have hload := calls_spec hH load hproper.2
    unfold call
    dsimp only
    cases hmap : s.respawnMap type spawnId with
    | none => exact .ok ⟨hs, .refl _ _ s⟩
    | some a =>
      obtain ⟨hout, ri, ha, rfl, rfl⟩ := hs.known type spawnId a hmap
      refine (respawn_spec hH hs ha hout hpool hload hproper.1.1).mono fun t ht => ⟨ht.1, ?_⟩
      refine ht.2.mono (fun type' id h => ?_) fun now h => ?_
      · unfold avoids at h
        rw [Bool.and_eq_true, Bool.and_eq_true] at h
        refine ⟨?_, h.1.2, h.2⟩
        rintro ⟨rfl, rfl⟩
        simp at h
      · unfold savesAfter at h
        exact Bool.and_eq_true_iff.mp h

theorem calls_spec (hH : H.ErasesByHandle) : ∀ cs : List Call, allProper cs = true →
    Keeps (H := H) out (fun type id => avoidsAll type id cs = true)
      (fun now => savesAllAfter now cs = true) fun s => s.calls cs
  | [], _ => fun s hs => by
    unfold calls
    exact .ok ⟨hs, .refl _ _ s⟩
  | c :: cs, hproper => fun s hs => by
    unfold allProper at hproper
    rw [Bool.and_eq_true] at hproper
    have hc := call_spec hH c hproper.1
    have hcs := calls_spec hH cs hproper.2
    unfold calls
    dsimp only
    refine (hc s hs).bind fun t ht => (hcs t ht.1).mono fun u hu => ⟨hu.1, ?_⟩
    refine (ht.2.trans hu.2).mono (fun type id h => ?_) fun now h => ?_
    · unfold avoidsAll at h
      exact Bool.and_eq_true_iff.mp h
    · unfold savesAllAfter at h
      exact Bool.and_eq_true_iff.mp h

end

end Sunstrider.Maps.Map
