import Sunstrider.Laws.Maps.RespawnStores
import Mathlib.Data.Finset.Card
import Mathlib.Data.Finset.Filter

/-!
# Processing respawns

One round of `ProcessRespawns`, the whole loop, and runs of a map.

`CheckRespawn` has the pool system called while the info that is due is still in the queue, and takes its
time away afterwards without telling the queue. `pop` then takes what is on top, whatever that is: **the
stores stay consistent** (`consistent_of_foremost`) in the runs in which the pool system leaves no other
spawn before the one that is processed.
-/

namespace Sunstrider.Maps.Map

open Lib (Admitted MutableHeap Yields run)

variable {H : MutableHeap ℕ Rank} {s t : Map H} {out : Option ℕ} {a next now : ℕ} {ri : RespawnInfo}

/-! ## The top of the queue -/

theorem Consistent.infos_of_mem (hs : s.Consistent out) (h : a ∈ H.elems s.respawnTimes) :
    ∃ ri, s.infos a = some ri := Option.isSome_iff_exists.mp ((hs.queue a).mp h).1

/-- An info that no other one is before is on top. -/
theorem Consistent.top_of_foremost (hs : s.Consistent none) (ha : s.infos a = some ri)
    (hforemost : ∀ b ∈ H.elems s.respawnTimes, s.rank b ≤ ri.rank) :
    H.top s.respawnTimes = some a := by
  have hmem : a ∈ H.elems s.respawnTimes :=
    (hs.queue a).mpr ⟨Option.isSome_iff_exists.mpr ⟨ri, ha⟩, fun h => (nomatch h)⟩
  cases htop : H.top s.respawnTimes with
  | none =>
    rw [(H.top_eq_none _).mp htop] at hmem
    exact absurd hmem (Finset.notMem_empty a)
  | some b =>
    have hb := H.top_mem _ b htop
    obtain ⟨rb, hrb⟩ := hs.infos_of_mem hb
    have hle := H.top_max _ _ b hs.ordered htop a hmem
    have hge := hforemost b hb
    rw [rank_eq ha, rank_eq hrb] at hle
    rw [rank_eq hrb] at hge
    -- two infos of one rank are of one spawn
    obtain ⟨-, htype, hid⟩ := eq_of_rank (le_antisymm hge hle)
    have hbmap := hs.mapped b rb hrb fun h => (nomatch h)
    have hamap := hs.mapped a ri ha fun h => (nomatch h)
    rw [htype, hid, hamap] at hbmap
    rw [← Option.some.inj hbmap]

theorem pop_eq (h : H.top s.respawnTimes = some a) :
    s.pop = .ok { s with respawnTimes := H.erase s.rank s.respawnTimes a } := by
  unfold pop
  rw [h]

/-! ## One round -/

theorem Consistent.unlinked (hs : s.Consistent none) (ha : s.infos a = some ri) :
    (({ s with respawnTimes := H.erase s.rank s.respawnTimes a } : Map H).eraseFromMap ri.type
      ri.spawnId).Consistent (some a) := by
  have hmapped := hs.mapped a ri ha fun h => (nomatch h)
  refine ⟨⟨fun b => ?_, fun b rb hb hout => ?_, fun type id b hb => ?_, hs.fresh, fun b hb => ?_⟩, ?_,
    hs.times⟩
  · show b ∈ H.elems (H.erase s.rank s.respawnTimes a) ↔ (s.infos b).isSome ∧ _
    rw [H.elems_erase, Finset.mem_erase, hs.queue]
    constructor
    · rintro ⟨hne, hb, -⟩
      exact ⟨hb, fun h => hne (Option.some.inj h)⟩
    · rintro ⟨hb, hne⟩
      exact ⟨fun h => hne (congrArg some h), hb, fun h => (nomatch h)⟩
  · have hbmap := hs.mapped b rb hb fun h => (nomatch h)
    rw [eraseFromMap_apply, if_neg]
    · exact hbmap
    · rintro ⟨htype, hid⟩
      rw [htype, hid, hmapped] at hbmap
      exact hout (congrArg some (Option.some.inj hbmap).symm)
  · rw [eraseFromMap_apply] at hb
    split at hb
    · cases hb
    · next hne =>
      obtain ⟨-, rb, hrb, rfl, rfl⟩ := hs.known type id b hb
      refine ⟨fun h => ?_, rb, hrb, rfl, rfl⟩
      obtain rfl := Option.some.inj h
      rw [ha] at hrb
      obtain rfl := Option.some.inj hrb
      exact hne ⟨rfl, rfl⟩
  · obtain rfl := Option.some.inj hb
    exact Option.isSome_iff_exists.mpr ⟨ri, ha⟩
  · exact H.ordered_erase s.rank s.respawnTimes a hs.ordered

theorem Consistent.freed (hs : s.Consistent (some a)) : (s.free a).Consistent none := by
  have hinfos : ∀ b rb, (s.free a).infos b = some rb → b ≠ a ∧ s.infos b = some rb := by
    intro b rb hb
    have hb : Function.update s.infos a none b = some rb := hb
    by_cases hne : b = a
    · rw [hne, Function.update_self] at hb
      cases hb
    · rw [Function.update_of_ne hne] at hb
      exact ⟨hne, hb⟩
  have hother : ∀ b, b ≠ a → (s.free a).infos b = s.infos b := fun b hne => Function.update_of_ne hne ..
  have hne : ∀ b, some b ≠ some a → b ≠ a := fun b h heq => h (congrArg some heq)
  refine ⟨⟨fun b => ?_, fun b rb hb _ => ?_, fun type id b hb => ?_, fun b hb => ?_, fun b hb => ?_⟩, ?_,
    fun b rb hb => ?_⟩
  · show b ∈ H.elems s.respawnTimes ↔ _
    rw [hs.queue]
    constructor
    · rintro ⟨hb, hout⟩
      rw [hother b (hne b hout)]
      exact ⟨hb, fun h => (nomatch h)⟩
    · rintro ⟨hb, -⟩
      obtain ⟨rb, hrb⟩ := Option.isSome_iff_exists.mp hb
      obtain ⟨hba, hrb⟩ := hinfos b rb hrb
      exact ⟨Option.isSome_iff_exists.mpr ⟨rb, hrb⟩, fun h => hba (Option.some.inj h)⟩
  · obtain ⟨hba, hb⟩ := hinfos b rb hb
    exact hs.mapped b rb hb fun h => hba (Option.some.inj h)
  · obtain ⟨hout, rb, hrb, htype, hid⟩ := hs.known type id b hb
    refine ⟨fun h => (nomatch h), rb, ?_, htype, hid⟩
    rw [hother b (hne b hout)]
    exact hrb
  · obtain ⟨rb, hrb⟩ := Option.isSome_iff_exists.mp hb
    exact hs.fresh b (Option.isSome_iff_exists.mpr ⟨rb, (hinfos b rb hrb).2⟩)
  · cases hb
  · refine H.ordered_congr s.rank _ s.respawnTimes (fun b hb => ?_) hs.ordered
    unfold rank
    rw [hother b (hne b ((hs.queue b).mp hb).2)]
  · exact hs.times b rb (hinfos b rb hb).2

/-- While the pool system updates the spawn that is due, it is called back for other spawns only. -/
def Fair (ri : RespawnInfo) (a : Answer) : Prop :=
  (avoidsAll ri.type ri.spawnId a.pool && allProper a.pool && allProper a.load) = true

/-- The pool system leaves nothing before the info that is due. -/
def Foremost (s : Map H) (ri : RespawnInfo) (a : Answer) : Prop :=
  (a.active && a.pooled) = true → match s.calls a.pool with
    | .error _ => True
    | .ok u => ∀ b ∈ H.elems u.respawnTimes, u.rank b ≤ ri.rank

/-- **A round of `ProcessRespawns`.** When the pool system leaves nothing before the info that is due, that
info is the one that is taken out, and nothing becomes due but by a call that saves a time that is. -/
theorem processRespawn_spec (hH : H.ErasesByHandle) (hs : s.Consistent none)
    (htop : H.top s.respawnTimes = some next) (hnext : s.infos next = some ri) {answers : Answers}
    (hfair : Fair ri (answers ri.type ri.spawnId))
    (hforemost : Foremost s ri (answers ri.type ri.spawnId)) :
    Yields (s.processRespawn now next answers) fun t => t.Consistent none ∧
      ((savesAllAfter now (answers ri.type ri.spawnId).pool &&
          savesAllAfter now (answers ri.type ri.spawnId).load) = true →
        ∀ b rb, t.infos b = some rb → rb.respawnTime ≤ now → s.infos b = some rb ∧ b ≠ next) := by
  unfold processRespawn
  rw [read_eq hnext]
  show Yields (s.checkRespawn next (answers ri.type ri.spawnId).active
    (answers ri.type ri.spawnId).pooled (answers ri.type ri.spawnId).present
    (fun s => s.calls (answers ri.type ri.spawnId).pool) >>= _) _
  generalize answers ri.type ri.spawnId = a at *
  unfold Fair at hfair
  rw [Bool.and_eq_true, Bool.and_eq_true] at hfair
  have hpool : Keeps (H := H) none _ _ fun s => s.calls a.pool := calls_spec hH a.pool hfair.1.2
  refine (checkRespawn_spec hs hnext hpool hfair.1.1).bind ?_
  rintro ⟨t, allowed⟩ (⟨rfl, rfl⟩ | ⟨rfl, u, hu, hleads, hunext, hwhy, rfl⟩)
  · -- it may respawn
    have hunlinked := hs.unlinked hnext
    obtain ⟨v, hv, hvcons, hvleads⟩ := calls_spec (H := H) hH a.load hfair.2 _ hunlinked
    have hvnext : v.infos next = some ri := hvleads.others next ri hnext (.inr rfl)
    show Yields (t.pop >>= _) _
    rw [pop_eq htop]
    show Yields (Map.read { t with respawnTimes := H.erase t.rank t.respawnTimes next } next >>= _) _
    rw [read_eq (s := { t with respawnTimes := H.erase t.rank t.respawnTimes next }) hnext]
    show Yields (Map.calls _ a.load >>= _) _
    dsimp only at hv ⊢
    rw [hv]
    show Yields (v.read next >>= _) _
    rw [read_eq hvnext]
    refine .ok ⟨hvcons.freed, fun hlater b rb hb hdue => ?_⟩
    have hb : Function.update v.infos next none b = some rb := hb
    by_cases hne : b = next
    · rw [hne, Function.update_self] at hb
      cases hb
    · rw [Function.update_of_ne hne] at hb
      exact ⟨hvleads.due now (Bool.and_eq_true_iff.mp hlater).2 b rb hb hdue, hne⟩
  · -- it may not
    have hutop : H.top u.respawnTimes = some next := by
      rcases hwhy with rfl | ⟨hactive, hpooled, hcalls⟩
      · exact htop
      · refine hu.top_of_foremost hunext ?_
        unfold Foremost at hforemost
        rw [hactive, hpooled, hcalls] at hforemost
        exact hforemost rfl
    have hza : (u.zeroed next ri).infos next = some { ri with respawnTime := 0 } :=
      Function.update_self ..
    show Yields ((u.zeroed next ri).read next >>= _) _
    rw [read_eq hza]
    show Yields ((u.zeroed next ri).pop >>= _) _
    rw [pop_eq (s := u.zeroed next ri) hutop]
    have hdel : Deleted (u.zeroed next ri) next { ri with respawnTime := 0 }
        ((({ u.zeroed next ri with
          respawnTimes := H.erase (u.zeroed next ri).rank (u.zeroed next ri).respawnTimes next } :
            Map H).eraseFromMap ri.type ri.spawnId).free next) := ⟨rfl, rfl, rfl, rfl⟩
    obtain ⟨hcons, hleads'⟩ := hdel.zeroed hH hu hunext fun h => (nomatch h)
    refine .ok ⟨hcons, fun hlater b rb hb hdue => ⟨?_, ?_⟩⟩
    · refine hleads.due now (Bool.and_eq_true_iff.mp hlater).1 b rb ?_ hdue
      exact hleads'.due now trivial b rb hb hdue
    · rintro rfl
      have hb : Function.update (u.zeroed b ri).infos b none b = some rb := hb
      rw [Function.update_self] at hb
      cases hb

/-! ## The loop -/

/-- The infos that are due. -/
def dueInfos (s : Map H) (now : ℕ) : Finset ℕ :=
  (H.elems s.respawnTimes).filter fun a => ((s.infos a).map RespawnInfo.respawnTime).getD 0 ≤ now

theorem Consistent.mem_dueInfos (hs : s.Consistent none) :
    a ∈ s.dueInfos now ↔ ∃ ri, s.infos a = some ri ∧ ri.respawnTime ≤ now := by
  unfold dueInfos
  rw [Finset.mem_filter, hs.queue]
  constructor
  · rintro ⟨⟨ha, -⟩, hdue⟩
    obtain ⟨ri, hri⟩ := Option.isSome_iff_exists.mp ha
    rw [hri] at hdue
    exact ⟨ri, hri, hdue⟩
  · rintro ⟨ri, hri, hdue⟩
    rw [hri]
    exact ⟨⟨rfl, fun h => (nomatch h)⟩, hdue⟩

theorem nextDue_spec (hs : s.Consistent none) (now : ℕ) :
    (s.nextDue now = .ok none ∧ ∀ a ri, s.infos a = some ri → now < ri.respawnTime) ∨
      ∃ next ri, s.nextDue now = .ok (some next) ∧ H.top s.respawnTimes = some next ∧
        s.infos next = some ri ∧ ri.respawnTime ≤ now := by
  unfold nextDue
  cases htop : H.top s.respawnTimes with
  | none =>
    refine .inl ⟨rfl, fun a ri ha => ?_⟩
    have hmem : a ∈ H.elems s.respawnTimes :=
      (hs.queue a).mpr ⟨Option.isSome_iff_exists.mpr ⟨ri, ha⟩, fun h => (nomatch h)⟩
    rw [(H.top_eq_none _).mp htop] at hmem
    exact absurd hmem (Finset.notMem_empty a)
  | some next =>
    obtain ⟨ri, hri⟩ := hs.infos_of_mem (H.top_mem _ next htop)
    dsimp only
    rw [read_eq hri]
    show (Except.ok (if now < ri.respawnTime then none else some next) = _ ∧ _) ∨ _
    by_cases hdue : now < ri.respawnTime
    · refine .inl ⟨by rw [if_pos hdue], fun a ra ha => ?_⟩
      have hmem : a ∈ H.elems s.respawnTimes :=
        (hs.queue a).mpr ⟨Option.isSome_iff_exists.mpr ⟨ra, ha⟩, fun h => (nomatch h)⟩
      have hle := H.top_max _ _ next hs.ordered htop a hmem
      rw [rank_eq ha, rank_eq hri] at hle
      exact hdue.trans_le (time_le_of_rank_le hle)
    · refine .inr ⟨next, ri, ?_, rfl, hri, not_lt.mp hdue⟩
      show (Except.ok (if now < ri.respawnTime then none else some next) : Except Fault _) = _
      rw [if_neg hdue]

/-- Calls that save later times only leave nothing before what is due. -/
theorem foremost_of_savesAllAfter (hH : H.ErasesByHandle) (hs : s.Consistent none)
    (htop : H.top s.respawnTimes = some next) (hnext : s.infos next = some ri)
    (hdue : ri.respawnTime ≤ now) {a : Answer} (hfair : Fair ri a)
    (hlater : savesAllAfter now a.pool = true) : Foremost s ri a := by
  intro _
  unfold Fair at hfair
  rw [Bool.and_eq_true, Bool.and_eq_true] at hfair
  obtain ⟨u, hu, hcons, hleads⟩ := calls_spec (H := H) hH a.pool hfair.1.2 s hs
  dsimp only at hu
  rw [hu]
  intro b hb
  obtain ⟨rb, hrb⟩ := hcons.infos_of_mem hb
  rw [rank_eq hrb]
  by_cases hbdue : rb.respawnTime ≤ now
  · have hsb := hleads.due now hlater b rb hrb hbdue
    have hmem : b ∈ H.elems s.respawnTimes :=
      (hs.queue b).mpr ⟨Option.isSome_iff_exists.mpr ⟨rb, hsb⟩, fun h => (nomatch h)⟩
    have hle := H.top_max _ _ next hs.ordered htop b hmem
    rwa [rank_eq hsb, rank_eq hnext] at hle
  · exact rank_le_of_time_lt (hdue.trans_lt (not_le.mp hbdue))

/-- The world, when it saves later times only and is called back for other spawns only. -/
def SavesLater (now : ℕ) (answers : Answers) : Prop :=
  ∀ ri : RespawnInfo, Fair ri (answers ri.type ri.spawnId) ∧
    (savesAllAfter now (answers ri.type ri.spawnId).pool &&
      savesAllAfter now (answers ri.type ri.spawnId).load) = true

/-- **`ProcessRespawns` comes to an end**, after as many rounds as there are infos due, and then nothing is
due any more. -/
theorem processRespawns_spec (hH : H.ErasesByHandle) {answers : List Answers}
    (hlater : ∀ answer ∈ answers, SavesLater now answer) {s : Map H} (hs : s.Consistent none)
    (hrounds : (s.dueInfos now).card ≤ answers.length) :
    Yields (s.processRespawns now answers) fun t => t.Consistent none ∧
      ∀ a ri, t.infos a = some ri → now < ri.respawnTime := by
  induction answers generalizing s with
  | nil =>
    have hnone : s.dueInfos now = ∅ := Finset.card_eq_zero.mp (Nat.le_zero.mp hrounds)
    unfold processRespawns
    rcases nextDue_spec hs now with ⟨hdone, hall⟩ | ⟨next, ri, -, -, hnext, hdue⟩
    · rw [hdone]
      exact .ok ⟨hs, hall⟩
    · have hmem := hs.mem_dueInfos.mpr ⟨ri, hnext, hdue⟩
      rw [hnone] at hmem
      exact absurd hmem (Finset.notMem_empty next)
  | cons answer answers ih =>
    unfold processRespawns
    rcases nextDue_spec hs now with ⟨hdone, hall⟩ | ⟨next, ri, hfound, htop, hnext, hdue⟩
    · rw [hdone]
      exact .ok ⟨hs, hall⟩
    · obtain ⟨hfair, hafter⟩ := hlater answer List.mem_cons_self ri
      have hforemost := foremost_of_savesAllAfter hH hs htop hnext hdue hfair
        (Bool.and_eq_true_iff.mp hafter).1
      rw [hfound]
      show Yields (s.processRespawn now next answer >>= _) _
      refine (processRespawn_spec hH hs htop hnext hfair hforemost).bind fun t ht => ?_
      refine ih (fun answer hmem => hlater answer (List.mem_cons_of_mem _ hmem)) ht.1 ?_
      -- a round takes its info away and makes none due
      have hsub : t.dueInfos now ⊆ (s.dueInfos now).erase next := by
        intro b hb
        obtain ⟨rb, hrb, hbdue⟩ := ht.1.mem_dueInfos.mp hb
        obtain ⟨hsb, hne⟩ := ht.2 hafter b rb hrb hbdue
        exact Finset.mem_erase.mpr ⟨hne, hs.mem_dueInfos.mpr ⟨rb, hsb, hbdue⟩⟩
      have hle := Finset.card_le_card hsub
      have hmem := hs.mem_dueInfos.mpr ⟨ri, hnext, hdue⟩
      rw [Finset.card_erase_of_mem hmem] at hle
      rw [List.length_cons] at hrounds
      omega

/-! ## Runs -/

/-- The callbacks of a step are about other spawns, and in a round the pool system leaves nothing before the
info that is due. -/
def Admits (s : Map H) : Op → Prop
  | .call c => proper c = true
  | .round now answers =>
    match s.nextDue now with
    | .ok (some next) =>
      match s.infos next with
      | some ri => Fair ri (answers ri.type ri.spawnId) ∧ Foremost s ri (answers ri.type ri.spawnId)
      | none => True
    | _ => True

/-- **The respawn stores stay consistent.** After any calls and rounds of `ProcessRespawns` in which the
pool system leaves no spawn before the one that is processed: the queue holds the infos of the two maps,
one for each spawn, and none that is deleted; a save stores the earlier time, or the new one; and
`ProcessRespawns` comes to an end, with nothing left that is due, when it is called back with later times
only. -/
theorem consistent_of_foremost (H : MutableHeap ℕ Rank) (hH : H.ErasesByHandle) (ops : List Op)
    (admitted : Admitted step Admits (new : Map H) ops) :
    Yields (run step (new : Map H) ops) fun s => s.Stored none ∧
      (∀ info : RespawnInfo, ∀ replace, info.spawnId ≠ 0 → Yields (s.saveRespawnTime info replace) fun t =>
        t.Stored none ∧ t.respawnTime info.type info.spawnId =
          savedTime (s.respawnTime info.type info.spawnId) info.respawnTime replace) ∧
      ∀ now answers, (∀ answer ∈ answers, SavesLater now answer) →
        (s.dueInfos now).card ≤ answers.length →
          Yields (s.processRespawns now answers) fun t => t.Stored none ∧
            ∀ a ri, t.infos a = some ri → now < ri.respawnTime := by
  have hstep : ∀ (s : Map H) op, s.Consistent none → Admits s op →
      Yields (step s op) fun t => t.Consistent none := by
    intro s op hs hadmits
    cases op with
    | call c => exact (call_spec (H := H) hH c hadmits s hs).mono fun t ht => ht.1
    | round now answers =>
      show Yields (s.nextDue now >>= _) _
      rcases nextDue_spec hs now with ⟨hdone, -⟩ | ⟨next, ri, hfound, htop, hnext, -⟩
      · rw [hdone]
        exact .ok hs
      · have hadmits : Fair ri (answers ri.type ri.spawnId) ∧
            Foremost s ri (answers ri.type ri.spawnId) := by
          unfold Admits at hadmits
          dsimp only at hadmits
          rw [hfound] at hadmits
          dsimp only at hadmits
          rw [hnext] at hadmits
          exact hadmits
        rw [hfound]
        exact (processRespawn_spec hH hs htop hnext hadmits.1 hadmits.2).mono fun t ht => ht.1
  refine (Lib.run_keeps_of_admitted hstep consistent_new admitted).mono fun s hs => ⟨hs.toStored, ?_, ?_⟩
  · intro info replace hid
    exact (saveRespawnTime_spec hH hs info replace).mono fun t ht => ⟨ht.1.toStored, ht.2.2 hid⟩
  · intro now answers hlater hrounds
    exact (processRespawns_spec hH hlater hs hrounds).mono fun t ht => ⟨ht.1.toStored, ht.2⟩

instance (ri : RespawnInfo) (a : Answer) : Decidable (Fair ri a) :=
  inferInstanceAs (Decidable (_ = true))

instance (s : Map H) (ri : RespawnInfo) (a : Answer) : Decidable (Foremost s ri a) := by
  unfold Foremost
  cases s.calls a.pool with
  | error e => exact inferInstanceAs (Decidable (_ → True))
  | ok u => exact inferInstanceAs (Decidable (_ → ∀ b ∈ H.elems u.respawnTimes, u.rank b ≤ ri.rank))

instance (s : Map H) : ∀ op, Decidable (Admits s op)
  | .call c => inferInstanceAs (Decidable (proper c = true))
  | .round now answers => by
    unfold Admits
    dsimp only
    cases s.nextDue now with
    | error e => exact inferInstanceAs (Decidable True)
    | ok next =>
      cases next with
      | none => exact inferInstanceAs (Decidable True)
      | some next =>
        dsimp only
        cases s.infos next with
        | none => exact inferInstanceAs (Decidable True)
        | some ri => exact inferInstanceAs (Decidable (Fair _ _ ∧ Foremost _ _ _))

/-- A heap that is a sorted list. -/
abbrev someHeap : MutableHeap ℕ Rank := MutableHeap.sortedList ℕ Rank

/-- A creature is due, and the pool system saves the time of another spawn. -/
def pooledRun (respawnTime : ℕ) : List Op :=
  [.call (.save .creature 1 7 5 0 0 false),
    .round 10 fun _ _ => ⟨true, true, false, [.save .creature 2 7 respawnTime 0 0 false], []⟩]

/-- The pool system saves a later time. -/
theorem consistent_of_later :
    Yields (run step (new : Map someHeap) (pooledRun 20)) fun s => s.Stored none ∧
      (∀ info : RespawnInfo, ∀ replace, info.spawnId ≠ 0 → Yields (s.saveRespawnTime info replace) fun t =>
        t.Stored none ∧ t.respawnTime info.type info.spawnId =
          savedTime (s.respawnTime info.type info.spawnId) info.respawnTime replace) ∧
      ∀ now answers, (∀ answer ∈ answers, SavesLater now answer) →
        (s.dueInfos now).card ≤ answers.length →
          Yields (s.processRespawns now answers) fun t => t.Stored none ∧
            ∀ a ri, t.infos a = some ri → now < ri.respawnTime :=
  consistent_of_foremost someHeap (MutableHeap.sortedList_erasesByHandle ℕ Rank) (pooledRun 20)
    (by decide +kernel)

/-- The pool system saves an earlier time: what is taken out is the info of the other spawn. The info of
the spawn that was processed is deleted and stays in the queue, and the other one is in its map and not in
the queue. -/
theorem not_consistent_of_earlier :
    ∃ s : Map someHeap, run step new (pooledRun 3) = .ok s ∧
      0 ∈ someHeap.elems s.respawnTimes ∧ s.infos 0 = none ∧
      s.respawnMap .creature 2 = some 1 ∧ 1 ∉ someHeap.elems s.respawnTimes :=
  ⟨_, rfl, by decide +kernel, by decide +kernel, by decide +kernel, by decide +kernel⟩

end Sunstrider.Maps.Map
