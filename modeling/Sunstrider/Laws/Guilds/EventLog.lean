import Mathlib.Data.Int.ModEq
import Sunstrider.Guilds.EventLog
import Sunstrider.Lib.Run

/-!
# When an event log survives its restarts

The entry that a guild makes after `k` others has the guid `k % maxRecords`, so the log holds guids of one
round and the row of a new entry takes the place of the oldest one (`RingLog.logEvent`). A restart reads the
rows in the order of the query, which is the order of the log just if the guids of one second grow and no
time is cut off (`kept_loadGuilds_iff`). `kept_iff_inOrder` has this for every run.
-/

namespace Sunstrider.Guilds

open Lib (AllAlong)

namespace EventLogEntry

instance : Std.Total Before where
  total row row' := by
    simp only [Before]
    omega

instance : IsTrans EventLogEntry Before where
  trans row row' row'' h h' := by
    simp only [Before] at h h' ⊢
    omega

end EventLogEntry

open EventLogEntry (Before)

/-- Two numbers of one window of the ring. -/
theorem eq_of_mod_eq {x y n : ℕ} (h : x % n = y % n) (hle : x ≤ y) (hlt : y < x + n) : x = y := by
  have hzero := Nat.eq_zero_of_dvd_of_lt ((Nat.modEq_iff_dvd' hle).mp h) (by omega)
  omega

/-- **What is promised of a log**: it has the last entries that were made, in their order, with a guid for
each, and the rows are those entries. -/
structure Kept (maxRecords : ℕ) (log rows logged : List EventLogEntry) : Prop where
  log_eq : log = logged.drop (logged.length - maxRecords)
  guids : (log.map EventLogEntry.guid).Nodup
  rows_perm : rows.Perm log

/-- A log with its guids in a ring. -/
structure RingLog (maxRecords clock : ℕ) (h : LogHolder) (rows logged : List EventLogEntry) : Prop where
  limit : h.maxRecords = maxRecords
  log_eq : h.log = logged.drop (logged.length - maxRecords)
  rows_perm : rows.Perm h.log
  ring : logged.map EventLogEntry.guid = (List.range logged.length).map (· % maxRecords)
  next : h.nextGUID =
    if logged = [] then guildEventLogGuidUndefined else (logged.length - 1) % maxRecords
  times : logged.Pairwise fun e e' => e.timestamp ≤ e'.timestamp
  past : ∀ e ∈ logged, e.timestamp ≤ clock

namespace RingLog

variable {n clock : ℕ} {h : LogHolder} {rows logged : List EventLogEntry} {e : EventLogEntry}

section

variable (r : RingLog n clock h rows logged)

include r

theorem guids_eq : h.log.map EventLogEntry.guid =
      (List.range' (logged.length - n) (logged.length - (logged.length - n))).map (· % n) := by
  rw [r.log_eq, List.map_drop, r.ring, ← List.map_drop, List.range_eq_range', List.drop_range',
    Nat.zero_add, Nat.mul_one]

theorem guids_nodup : (h.log.map EventLogEntry.guid).Nodup := by
  rw [r.guids_eq]
  refine List.Nodup.map_on (fun x hx y hy hxy => ?_) List.nodup_range'
  rw [List.mem_range'_1] at hx hy
  rcases Nat.le_total x y with hle | hle
  · exact eq_of_mod_eq hxy hle (by omega)
  · exact (eq_of_mod_eq hxy.symm hle (by omega)).symm

theorem kept : Kept n h.log rows logged :=
  ⟨r.log_eq, r.guids_nodup, r.rows_perm⟩

theorem length_log : h.log.length = min n logged.length := by
  rw [r.log_eq, List.length_drop]
  omega

theorem getNextGUID (hn : n ≤ 255) (hpos : 0 < n) : h.getNextGUID.nextGUID = logged.length % n := by
  rw [LogHolder.getNextGUID]
  dsimp only
  rw [r.next, r.limit]
  by_cases hempty : logged = []
  · subst hempty
    simp
  · have hlen : 0 < logged.length := List.length_pos_of_ne_nil hempty
    have hsmall : (logged.length - 1) % n < 255 := (Nat.mod_lt _ hpos).trans_le hn
    rw [if_neg hempty, if_neg (by rw [guildEventLogGuidUndefined]; omega), Nat.mod_add_mod]
    congr 1
    omega

theorem filter_log (hpos : 0 < n) : h.log.filter (fun row => row.guid ≠ logged.length % n) =
      if n ≤ h.log.length then h.log.tail else h.log := by
  have hlength := r.length_log
  have hguids := r.guids_eq
  have hnodup := r.guids_nodup
  split
  next hfull =>
    cases hlog : h.log with
    | nil =>
      rw [hlog] at hfull
      exact absurd hfull (Nat.not_le_of_lt hpos)
    | cons first rest =>
      rw [hlog] at hguids hnodup hlength
      have hfirst : first.guid = logged.length % n := by
        obtain ⟨k, hk⟩ : ∃ k, logged.length - (logged.length - n) = k + 1 :=
          ⟨n - 1, by rw [hlog] at hfull; omega⟩
        rw [hk, List.range'_succ, List.map_cons, List.map_cons] at hguids
        rw [(List.cons.inj hguids).1, ← Nat.mod_eq_sub_mod (by rw [hlog] at hfull; omega)]
      rw [List.map_cons, List.nodup_cons] at hnodup
      rw [List.filter_cons_of_neg (by simp [hfirst]), List.tail_cons, List.filter_eq_self]
      intro row hrow
      simp only [ne_eq, decide_eq_true_eq]
      rintro heq
      exact hnodup.1 (List.mem_map.mpr ⟨row, hrow, heq.trans hfirst.symm⟩)
  next hroom =>
    rw [List.filter_eq_self]
    intro row hrow
    have hmem := List.mem_map_of_mem (f := EventLogEntry.guid) hrow
    rw [hguids, List.mem_map] at hmem
    obtain ⟨i, hi, hguid⟩ := hmem
    rw [List.mem_range'_1] at hi
    simp only [ne_eq, decide_eq_true_eq]
    rw [← hguid, Nat.mod_eq_of_lt (by omega), Nat.mod_eq_of_lt (by omega)]
    omega

/-- **A new entry** takes the place of the oldest one, in the log and in the table. -/
theorem logEvent (hn : n ≤ 255) (hpos : 0 < n)
    (hguid : e.guid = h.getNextGUID.nextGUID) (htime : clock ≤ e.timestamp) :
    RingLog n e.timestamp (h.getNextGUID.addEvent e) (rows.filter (fun row => row.guid ≠ e.guid) ++ [e])
      (logged ++ [e]) := by
  have hnext := r.getNextGUID hn hpos
  have hlog : (h.getNextGUID.addEvent e).log = (if n ≤ h.log.length then h.log.tail else h.log) ++ [e] := by
    rw [← r.limit]
    rfl
  refine ⟨r.limit, ?_, ?_, ?_, ?_, ?_, ?_⟩
  · rw [hlog, List.length_append, List.length_singleton, r.length_log, r.log_eq, List.tail_drop]
    split
    next hfull =>
      rw [List.drop_append_of_le_length (by omega)]
      congr 2
      omega
    next hroom =>
      rw [List.drop_append_of_le_length (by omega)]
      congr 2
      omega
  · rw [hlog, ← r.filter_log hpos, ← hnext, ← hguid]
    exact (r.rows_perm.filter _).append_right [e]
  · rw [List.map_append, r.ring, List.length_append, List.length_singleton, List.range_succ,
      List.map_append, List.map_singleton, List.map_singleton, hguid, hnext]
  · have hne : logged ++ [e] ≠ [] := by simp
    rw [if_neg hne, List.length_append, List.length_singleton, Nat.add_sub_cancel]
    exact hnext
  · rw [List.pairwise_append]
    refine ⟨r.times, List.pairwise_singleton _ _, fun a ha b hb => ?_⟩
    rw [List.mem_singleton.mp hb]
    exact (r.past a ha).trans htime
  · intro a ha
    rcases List.mem_append.mp ha with ha | ha
    · exact (r.past a ha).trans htime
    · rw [List.mem_singleton.mp ha]

theorem later {clock' : ℕ} (hle : clock ≤ clock') : RingLog n clock' h rows logged :=
  { r with past := fun e he => (r.past e he).trans hle }

/-! ## A restart -/

theorem guid_lt (hpos : 0 < n) {row : EventLogEntry} (hrow : row ∈ rows) : row.guid < n := by
  have hmem := List.mem_map_of_mem (f := EventLogEntry.guid) (r.rows_perm.mem_iff.mp hrow)
  rw [r.guids_eq, List.mem_map] at hmem
  obtain ⟨i, -, hguid⟩ := hmem
  rw [← hguid]
  exact Nat.mod_lt _ hpos

end

/-- The entries of a log that the query returns in the order of the log. -/
def InOrder (log : List EventLogEntry) : Prop :=
  (∀ e ∈ log, e.timestamp < 2 ^ 32) ∧
    log.Pairwise fun e e' => e.timestamp = e'.timestamp → e.guid < e'.guid

theorem map_reload {log : List EventLogEntry} (h : ∀ e ∈ log, e.timestamp < 2 ^ 32) :
    log.map EventLogEntry.reload = log := by
  have hsame : ∀ e ∈ log, e.reload = id e := fun e he => by
    rw [EventLogEntry.reload, Nat.mod_eq_of_lt (h e he)]
    rfl
  rw [List.map_congr_left hsame, List.map_id]

theorem sorted_iff (r : RingLog n clock h rows logged) {sorted : List EventLogEntry}
    (hperm : sorted.Perm rows) (hsorted : sorted.Pairwise Before) :
    (sorted.map EventLogEntry.reload).reverse = h.log ↔ InOrder h.log := by
  have hlog := hperm.trans r.rows_perm
  have htimes : h.log.Pairwise fun e e' => e.timestamp ≤ e'.timestamp := by
    rw [r.log_eq]
    exact r.times.sublist (List.drop_sublist _ _)
  constructor
  · intro heq
    have hcut : ∀ e ∈ h.log, e.timestamp < 2 ^ 32 := by
      intro e he
      rw [← heq, List.mem_reverse, List.mem_map] at he
      obtain ⟨row, -, rfl⟩ := he
      exact Nat.mod_lt _ (by decide)
    have hsame : sorted.map EventLogEntry.reload = sorted :=
      map_reload fun e he => hcut e (hlog.mem_iff.mp he)
    refine ⟨hcut, ?_⟩
    rw [hsame] at heq
    have hrev : h.log.Pairwise fun e e' => Before e' e := by
      rw [← heq, List.pairwise_reverse]
      exact hsorted
    have hguids : h.log.Pairwise fun e e' => e.guid ≠ e'.guid := List.pairwise_map.mp r.guids_nodup
    refine (hrev.and hguids).imp fun ⟨hbefore, hne⟩ hsecond => ?_
    simp only [Before] at hbefore
    omega
  · rintro ⟨hcut, horder⟩
    have hsame : sorted.map EventLogEntry.reload = sorted :=
      map_reload fun e he => hcut e (hlog.mem_iff.mp he)
    have hrev : h.log.reverse.Pairwise Before := by
      rw [List.pairwise_reverse]
      refine (htimes.and horder).imp fun {e e'} ⟨hle, hlt⟩ => ?_
      by_cases hsecond : e.timestamp = e'.timestamp
      · exact .inr ⟨hsecond, (hlt hsecond).le⟩
      · exact .inl (lt_of_le_of_ne hle hsecond)
    have hanti : ∀ a b, a ∈ sorted → b ∈ h.log.reverse → Before a b → Before b a → a = b := by
      intro a b ha hb hab hba
      have hguid : a.guid = b.guid := by
        simp only [Before] at hab hba
        omega
      exact List.inj_on_of_nodup_map r.guids_nodup (hlog.mem_iff.mp ha) (List.mem_reverse.mp hb) hguid
    rw [hsame, List.Perm.eq_of_pairwise hanti hsorted hrev (hlog.trans h.log.reverse_perm.symm),
      List.reverse_reverse]

end RingLog

namespace LogHolder

theorem log_foldl_loadEventLogFromDB (rows : List EventLogEntry) :
    ∀ h : LogHolder, rows.length + h.log.length ≤ h.maxRecords →
      (rows.foldl loadEventLogFromDB h).log = (rows.map EventLogEntry.reload).reverse ++ h.log ∧
        (rows.foldl loadEventLogFromDB h).maxRecords = h.maxRecords := by
  induction rows with
  | nil => exact fun h _ => ⟨rfl, rfl⟩
  | cons row rows ih =>
    intro h hroom
    rw [List.length_cons] at hroom
    have hload : h.loadEventLogFromDB row = h.loadEvent row.reload :=
      if_pos (decide_eq_true (by omega))
    rw [List.foldl_cons, hload]
    have hrest : rows.length + (row.reload :: h.log).length ≤ h.maxRecords := by
      rw [List.length_cons]
      omega
    obtain ⟨hlog, hmax⟩ := ih (h.loadEvent row.reload) hrest
    refine ⟨?_, hmax⟩
    rw [hlog, loadEvent, List.map_cons, List.reverse_cons, List.append_assoc]
    rfl

theorem nextGUID_foldl_of_ne (rows : List EventLogEntry) :
    ∀ h : LogHolder, h.nextGUID ≠ guildEventLogGuidUndefined →
      (rows.foldl loadEventLogFromDB h).nextGUID = h.nextGUID := by
  induction rows with
  | nil => exact fun h _ => rfl
  | cons row rows ih =>
    intro h hne
    have hround : (h.loadEventLogFromDB row).nextGUID = h.nextGUID := by
      unfold loadEventLogFromDB
      split
      · exact if_neg hne
      · rfl
    rw [List.foldl_cons, ih _ (by rwa [hround]), hround]

theorem nextGUID_foldl_new {n : ℕ} {row : EventLogEntry} (rows : List EventLogEntry) (hpos : 0 < n)
    (hguid : row.guid ≠ guildEventLogGuidUndefined) :
    ((row :: rows).foldl loadEventLogFromDB (new n)).nextGUID = row.guid := by
  have hload : (new n).loadEventLogFromDB row = (new n).loadEvent row.reload :=
    if_pos (decide_eq_true hpos)
  have hnext : ((new n).loadEvent row.reload).nextGUID = row.guid := by
    simp [loadEvent, new, EventLogEntry.reload]
  rw [List.foldl_cons, hload, nextGUID_foldl_of_ne rows _ (by rwa [hnext]), hnext]

end LogHolder

namespace EventLogs

open RingLog (InOrder)

variable {n : ℕ} {s : EventLogs}

/-- The rows of a guild. -/
def rowsOf (s : EventLogs) (g : ℕ) : List EventLogEntry := s.rows.filter fun row => row.guildId = g

/-- What is promised of the event logs. -/
def Sound (n : ℕ) (s : EventLogs) : Prop := ∀ g, Kept n (s.holders g).log (s.rowsOf g) (s.logged g)

def Good (n : ℕ) (s : EventLogs) : Prop :=
  ∀ g, RingLog n s.clock (s.holders g) (s.rowsOf g) (s.logged g)

/-- Before a restart the entries of each log are as the query orders them. -/
def Admits (s : EventLogs) : Op → Prop
  | .logEvent _ _ _ => True
  | .restart => ∀ g, InOrder (s.holders g).log

theorem good_new (n : ℕ) : Good n (new n) := fun _ =>
  { limit := rfl, log_eq := List.drop_nil.symm, rows_perm := .nil, ring := rfl, next := rfl,
    times := .nil, past := fun _ he => (nomatch he) }

theorem Good.sound (h : Good n s) : Sound n s := fun g => (h g).kept

theorem good_logEvent (h : Good n s) (hn : n ≤ 255) (hpos : 0 < n) (g elapsed event : ℕ) :
    Good n (s.logEvent g elapsed event) := by
  intro g'
  by_cases hg : g' = g
  · subst hg
    have hring := (h g').logEvent (e := ⟨g', (s.holders g').getNextGUID.nextGUID, s.clock + elapsed, event⟩)
      hn hpos rfl (Nat.le_add_right _ _)
    have hrows : (s.logEvent g' elapsed event).rowsOf g' =
        (s.rowsOf g').filter (fun row => row.guid ≠ (s.holders g').getNextGUID.nextGUID) ++
          [⟨g', (s.holders g').getNextGUID.nextGUID, s.clock + elapsed, event⟩] := by
      simp only [rowsOf, EventLogs.logEvent, EventLogEntry.saveToDB, List.filter_append, List.filter_filter]
      congr 1
      · refine List.filter_congr fun row _ => ?_
        by_cases hrow : row.guildId = g' <;> simp [hrow]
      · simp
    rw [hrows]
    simpa [EventLogs.logEvent] using hring
  · have hrows : (s.logEvent g elapsed event).rowsOf g' = s.rowsOf g' := by
      simp only [rowsOf, EventLogs.logEvent, EventLogEntry.saveToDB, List.filter_append, List.filter_filter]
      rw [List.filter_cons_of_neg (by simpa using Ne.symm hg), List.filter_nil, List.append_nil]
      refine List.filter_congr fun row _ => ?_
      by_cases hrow : row.guildId = g'
      · simp [hrow, hg]
      · simp [hrow]
    rw [hrows]
    have hlater := (h g').later (Nat.le_add_right s.clock elapsed)
    simpa [EventLogs.logEvent, Function.update_of_ne hg] using hlater

theorem foldl_loadRow (rows : List EventLogEntry) (g : ℕ) :
    ∀ holders : ℕ → LogHolder, rows.foldl loadRow holders g =
      (rows.filter fun row => row.guildId = g).foldl LogHolder.loadEventLogFromDB (holders g) := by
  induction rows with
  | nil => exact fun _ => rfl
  | cons row rows ih =>
    intro holders
    rw [List.foldl_cons, ih, loadRow]
    by_cases hg : row.guildId = g
    · subst hg
      rw [Function.update_self, List.filter_cons_of_pos (by simp), List.foldl_cons]
    · rw [Function.update_of_ne (Ne.symm hg), List.filter_cons_of_neg (by simpa using hg)]

theorem holders_loadGuilds (h : Good n s) (hpos : 0 < n) (g : ℕ) :
    ∃ sorted : List EventLogEntry, sorted.Perm (s.rowsOf g) ∧ sorted.Pairwise Before ∧ sorted.length ≤ n ∧
      (s.loadGuilds n).rowsOf g = s.rowsOf g ∧
      (s.loadGuilds n).holders g = sorted.foldl LogHolder.loadEventLogFromDB (LogHolder.new n) := by
  have hrows : s.rows.filter (fun row => row.guid ≤ n) = s.rows := by
    rw [List.filter_eq_self]
    intro row hrow
    have hof : row ∈ s.rowsOf row.guildId := List.mem_filter.mpr ⟨hrow, by simp⟩
    exact decide_eq_true ((h row.guildId).guid_lt hpos hof).le
  have hperm : ((s.rows.insertionSort Before).filter fun row => row.guildId = g).Perm (s.rowsOf g) :=
    (List.perm_insertionSort Before s.rows).filter _
  refine ⟨(s.rows.insertionSort Before).filter fun row => row.guildId = g, hperm, ?_, ?_, ?_, ?_⟩
  · exact (List.pairwise_insertionSort Before s.rows).filter _
  · rw [(hperm.trans (h g).rows_perm).length_eq, (h g).length_log]
    exact Nat.min_le_left _ _
  · rw [loadGuilds, rowsOf, rowsOf]
    rw [hrows]
  · rw [loadGuilds]
    dsimp only
    rw [hrows, foldl_loadRow]

/-- **A restart keeps a log** just if the query returns its entries in their order. -/
theorem kept_loadGuilds_iff (h : Good n s) (hpos : 0 < n) (g : ℕ) :
    Kept n ((s.loadGuilds n).holders g).log ((s.loadGuilds n).rowsOf g) (s.logged g) ↔
      InOrder (s.holders g).log := by
  have r := h g
  obtain ⟨sorted, hperm, hsorted, hroom, hrows, hholder⟩ := holders_loadGuilds h hpos g
  have hlog := (LogHolder.log_foldl_loadEventLogFromDB sorted (LogHolder.new n) hroom).1
  rw [← hholder, LogHolder.new, List.append_nil] at hlog
  rw [← r.sorted_iff hperm hsorted, ← hlog, hrows]
  constructor
  · intro hkept
    rw [hkept.log_eq, r.log_eq]
  · intro heq
    rw [heq]
    exact r.kept

theorem good_loadGuilds (h : Good n s) (hn : n ≤ 255) (hpos : 0 < n)
    (hadmits : ∀ g, InOrder (s.holders g).log) : Good n (s.loadGuilds n) := by
  intro g
  have r := h g
  have hkept := (kept_loadGuilds_iff h hpos g).mpr (hadmits g)
  obtain ⟨sorted, hperm, hsorted, hroom, hrows, hholder⟩ := holders_loadGuilds h hpos g
  obtain ⟨hlog, hmax⟩ := LogHolder.log_foldl_loadEventLogFromDB sorted (LogHolder.new n) hroom
  rw [← hholder] at hlog hmax
  refine { limit := hmax, log_eq := hkept.log_eq, rows_perm := hkept.rows_perm, ring := r.ring,
           next := ?_, times := r.times, past := r.past }
  rw [hholder]
  have hsame : (sorted.map EventLogEntry.reload).reverse = (s.holders g).log :=
    (r.sorted_iff hperm hsorted).mpr (hadmits g)
  cases hcases : sorted with
  | nil =>
    have hempty : s.logged g = [] := by
      have hlength := (hperm.trans r.rows_perm).length_eq
      rw [hcases, r.length_log, List.length_nil] at hlength
      exact List.length_eq_zero_iff.mp (by omega)
    have hl : (s.loadGuilds n).logged g = [] := hempty
    rw [hl]
    rfl
  | cons row rows =>
    have hrow : row ∈ s.rowsOf g := hperm.mem_iff.mp (hcases ▸ List.mem_cons_self)
    have hlt := r.guid_lt hpos hrow
    have hne : row.guid ≠ guildEventLogGuidUndefined := by
      rw [guildEventLogGuidUndefined]
      omega
    rw [LogHolder.nextGUID_foldl_new rows hpos hne]
    -- the first row is the last entry that was made
    have hlast := congrArg (fun log => (log.map EventLogEntry.guid).getLast?) hsame
    rw [hcases, List.map_cons, List.reverse_cons, List.map_append, List.map_singleton,
      List.getLast?_concat, r.log_eq, List.map_drop, r.ring] at hlast
    have hlogged : s.logged g ≠ [] := by
      rintro hempty
      rw [hempty] at hlast
      simp at hlast
    have hlen : 0 < (s.logged g).length := List.length_pos_of_ne_nil hlogged
    have hl : (s.loadGuilds n).logged g = s.logged g := rfl
    rw [hl, if_neg hlogged]
    rw [List.getLast?_drop, if_neg (by simp; omega), List.getLast?_map, List.getLast?_range] at hlast
    simpa [hlogged, EventLogEntry.reload] using hlast

/-! ## Runs -/

theorem good_step (hn : n ≤ 255) (hpos : 0 < n) (s : EventLogs) (op : Op) (h : Good n s)
    (hop : Admits s op) : Good n (s.step n op) := by
  cases op with
  | logEvent g elapsed event => exact good_logEvent h hn hpos g elapsed event
  | restart => exact good_loadGuilds h hn hpos hop

theorem admits_of_sound (hpos : 0 < n) (s : EventLogs) (op : Op) (h : Good n s)
    (hsound : Sound n (s.step n op)) : Admits s op := by
  cases op with
  | logEvent g elapsed event => exact trivial
  | restart => exact fun g => (kept_loadGuilds_iff h hpos g).mp (hsound g)

/-- **An event log survives its restarts** just if each of them finds the entries of one second with guids
that grow, and no time that is cut off. -/
theorem kept_iff_inOrder (n : ℕ) (hpos : 1 ≤ n) (hn : n ≤ 255) (ops : List Op) :
    (∀ l, l <+: ops → Sound n (l.foldl (step n) (new n))) ↔ AllAlong (step n) Admits (new n) ops :=
  Lib.always_iff_allAlong (good_step hn hpos) (fun _ h => h.sound) (admits_of_sound hpos) (good_new n) ops

/-- Three events of one second, in a log of two entries, and a restart. -/
def wrapped : List Op := [.logEvent 1 5 0, .logEvent 1 0 1, .logEvent 1 0 2, .restart]

theorem not_sound_wrapped :
    ¬ ∀ l, l <+: wrapped → Sound 2 (l.foldl (step 2) (new 2)) := by
  intro hsound
  have hlog := (hsound wrapped List.prefix_rfl 1).log_eq
  revert hlog
  decide

theorem kept_iff_inOrder_wrapped :
    (1 ≤ 2 ∧ 2 ≤ 255) ∧ ((∀ l, l <+: wrapped → Sound 2 (l.foldl (step 2) (new 2))) ↔
      AllAlong (step 2) Admits (new 2) wrapped) :=
  ⟨by decide, kept_iff_inOrder 2 (by decide) (by decide) wrapped⟩

end EventLogs

end Sunstrider.Guilds
