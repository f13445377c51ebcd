import Mathlib.Data.Finset.Card
import Sunstrider.Lib.Run
import Sunstrider.Player.SpamReports

/-!
# Which reports of spam expire

The loop starts again at the first report whenever it has taken one away, and steps over that report at once. So
from the second report on it takes away what has expired (`trash_behind`), but when the first report has expired
the one behind it is never looked at (`trash_all`). It does not go past the end, since the new report stays.
-/

namespace Sunstrider.Spam

open Lib (Yields)
open Tickets (getCounter)

variable {period : UInt32} {now : ℤ}

/-! ## The loop -/

/-- The reports that have not expired. -/
def kept (period : UInt32) (now : ℤ) (l : List (ℕ × SpamReport)) : List (ℕ × SpamReport) :=
  l.filter fun e => !expired period now e

variable {l : List (ℕ × SpamReport)}

theorem kept_eq_self (h : ∀ e ∈ l, expired period now e = false) : kept period now l = l :=
  List.filter_eq_self.mpr fun e he => by rw [h e he]; rfl

theorem trash_behind (first : ℕ × SpamReport) (seen rest : List (ℕ × SpamReport))
    (hseen : ∀ e ∈ seen, expired period now e = false) :
    trash period now (first :: seen) rest = .ok (first :: (seen ++ kept period now rest)) := by
  generalize hfront : first :: seen = front
  induction front, rest using trash.induct period now generalizing first seen with
  | case1 front =>
    rw [trash, ← hfront, kept, List.filter_nil, List.append_nil]
  | case2 front e rest hexpired hnil =>
    rw [← hfront] at hnil
    cases hnil
  | case3 front e rest hexpired first' others hcons ih =>
    -- What has been seen is walked over once more, and stays.
    rw [← hfront, List.cons_append] at hcons
    obtain ⟨rfl, rfl⟩ := List.cons.inj hcons
    have hagain := ih first [] (List.forall_mem_nil _) rfl
    rw [List.nil_append, kept, List.filter_append, ← kept, ← kept, kept_eq_self hseen] at hagain
    have hdrop : kept period now (e :: rest) = kept period now rest := by
      rw [kept, List.filter_cons, hexpired]
      rfl
    subst hfront
    rw [trash, if_pos hexpired, hdrop]
    exact hagain
  | case4 front e rest hkept ih =>
    have he : expired period now e = false := Bool.not_eq_true _ ▸ hkept
    have hmore := ih first (seen ++ [e]) (by simpa [or_imp, forall_and, he] using hseen)
      (by rw [← hfront, List.cons_append])
    have hkeep : kept period now (e :: rest) = e :: kept period now rest := by
      rw [kept, List.filter_cons, he]
      rfl
    rw [trash, if_neg hkept, hmore, hkeep, List.append_assoc]
    rfl

/-- The report behind one that has expired in front is stepped over. -/
def left (period : UInt32) (now : ℤ) : List (ℕ × SpamReport) → List (ℕ × SpamReport)
  | [] => []
  | e :: rest => if expired period now e then rest.take 1 ++ kept period now (rest.drop 1) else e :: kept period now rest

/-- The loop does not go past the end where a report stays. -/
theorem trash_eq (h : ∃ e ∈ l, expired period now e = false) :
    trash period now [] l = .ok (left period now l) := by
  obtain ⟨fresh, hmem, hfresh⟩ := h
  cases l with
  | nil => cases hmem
  | cons e rest =>
    rw [trash, left]
    split
    · next hexpired =>
      cases rest with
      | nil =>
        rw [List.mem_singleton.mp hmem, hexpired] at hfresh
        cases hfresh
      | cons first others => exact trash_behind first [] others (List.forall_mem_nil _)
    · exact trash_behind e [] rest (List.forall_mem_nil _)

/-- All that has expired goes just if one of the first two reports has not. -/
theorem left_eq_kept (h : ∃ e ∈ l.take 2, expired period now e = false) :
    left period now l = kept period now l := by
  obtain ⟨fresh, hmem, hfresh⟩ := h
  cases l with
  | nil => rfl
  | cons e rest =>
    by_cases he : expired period now e = true
    · cases rest with
      | nil => simp [left, kept, he]
      | cons first others =>
        have hfirst : expired period now first = false := by
          rcases List.mem_cons.mp hmem with rfl | hmem
          · rw [he] at hfresh
            cases hfresh
          · rwa [List.mem_singleton.mp hmem] at hfresh
        simp [left, kept, he, hfirst]
    · simp [left, kept, he]

theorem exists_expired_left (h : ∃ e ∈ l, expired period now e = false)
    (hfront : ¬∃ e ∈ l.take 2, expired period now e = false) :
    ∃ e ∈ left period now l, expired period now e = true := by
  obtain ⟨fresh, hmem, hfresh⟩ := h
  have hall : ∀ e ∈ l.take 2, expired period now e = true := by simpa using hfront
  match l, hmem with
  | [e], hmem =>
    have he := hall e (List.mem_cons_self ..)
    rw [← List.mem_singleton.mp hmem, hfresh] at he
    cases he
  | e :: first :: others, _ =>
    have he := hall e (List.mem_cons_self ..)
    have hfirst := hall first (List.mem_cons_of_mem _ (List.mem_cons_self ..))
    exact ⟨first, by simp [left, he], hfirst⟩

/-! ## A new report -/

variable (p : Player) (cfg : Config) (reporterGUID : UInt64) (message : String)

/-- The map with the new report. -/
def reported (now : ℤ) : SpamReports :=
  p.spamReports.assign (getCounter reporterGUID).toNat ⟨now, reporterGUID, message⟩

/-- The players who have reported within the period. -/
def reporters (now : ℤ) : Finset ℕ :=
  insert (getCounter reporterGUID).toNat
    ((p.spamReports.entries.filter fun e => now - e.2.time ≤ cfg.period.toNat).map Prod.fst).toFinset

/-- The new report is held, and those of others that are not too old; and there is an alert when enough players have
reported, unless there was one lately. -/
structure Expires (now : ℤ) (p' : Player) : Prop where
  reports : ∀ e, e ∈ p'.spamReports.entries ↔
    e = ((getCounter reporterGUID).toNat, ⟨now, reporterGUID, message⟩) ∨
      e ∈ p.spamReports.entries ∧ e.1 ≠ (getCounter reporterGUID).toNat ∧ now - e.2.time ≤ cfg.period.toNat
  alert : p'.lastSpamAlert =
    if p.lastSpamAlert ≤ now - cfg.cooldown.toNat ∧
        cfg.threshold.toNat ≤ (reporters p cfg reporterGUID now).card then now else p.lastSpamAlert

variable {p cfg reporterGUID message}

variable {e : ℕ × SpamReport}

theorem fresh_iff : expired period now e = false ↔ now - e.2.time ≤ period.toNat := by
  rw [expired, decide_eq_false_iff_not]
  omega

theorem mem_reported :
    e ∈ (reported p reporterGUID message now).entries ↔
      e = ((getCounter reporterGUID).toNat, ⟨now, reporterGUID, message⟩) ∨
        e ∈ p.spamReports.entries ∧ e.1 ≠ (getCounter reporterGUID).toNat :=
  Lib.mem_mapAssign

/-- The new report has not expired, for any period. -/
theorem exists_fresh : ∃ e ∈ (reported p reporterGUID message now).entries, expired period now e = false :=
  ⟨_, mem_reported.mpr (.inl rfl), fresh_iff.mpr (by simp)⟩

theorem trashExpired_yields {m : SpamReports} (h : ∃ e ∈ m.entries, expired period now e = false) :
    Yields (m.trashExpired period now) fun m' => m'.entries = left period now m.entries := by
  have hloop := trash_eq h
  unfold SpamReports.trashExpired
  split
  next heq => cases heq.symm.trans hloop
  next heq => exact .ok (Except.ok.inj (heq.symm.trans hloop))

theorem addSpamReport_yields (p : Player) (cfg : Config) (now : ℤ) (reporterGUID : UInt64) (message : String) :
    Yields (p.addSpamReport cfg now reporterGUID message) fun p' =>
      p'.spamReports.entries = left cfg.period now (reported p reporterGUID message now).entries ∧
        p'.lastSpamAlert =
          if p.lastSpamAlert ≤ now - cfg.cooldown.toNat ∧ cfg.threshold.toNat ≤ p'.spamReports.entries.length
            then now else p.lastSpamAlert := by
  refine (trashExpired_yields exists_fresh).bind fun m' hm' => ?_
  by_cases hlately : p.lastSpamAlert > now - cfg.cooldown.toNat
  · rw [if_pos hlately]
    exact .ok ⟨hm', (if_neg fun h => absurd h.1 (not_le.mpr hlately)).symm⟩
  · rw [if_neg hlately]
    by_cases hmany : m'.entries.length ≥ cfg.threshold.toNat
    · rw [if_pos hmany]
      exact .ok ⟨hm', (if_pos ⟨not_lt.mp hlately, hmany⟩).symm⟩
    · rw [if_neg hmany]
      exact .ok ⟨hm', (if_neg fun h => hmany h.2).symm⟩

theorem mem_kept_reported :
    e ∈ kept period now (reported p reporterGUID message now).entries ↔
      e = ((getCounter reporterGUID).toNat, ⟨now, reporterGUID, message⟩) ∨
        e ∈ p.spamReports.entries ∧ e.1 ≠ (getCounter reporterGUID).toNat ∧ now - e.2.time ≤ period.toNat := by
  rw [kept, List.mem_filter, mem_reported, Bool.not_eq_true', fresh_iff]
  constructor
  · rintro ⟨rfl | ⟨hmem, hne⟩, hfresh⟩
    · exact .inl rfl
    · exact .inr ⟨hmem, hne, hfresh⟩
  · rintro (rfl | ⟨hmem, hne, hfresh⟩)
    · exact ⟨.inl rfl, by simp⟩
    · exact ⟨.inr ⟨hmem, hne⟩, hfresh⟩

/-- The reports that have not expired are of as many players. -/
theorem length_kept_reported :
    (kept cfg.period now (reported p reporterGUID message now).entries).length =
      (reporters p cfg reporterGUID now).card := by
  have hnodup : ((kept cfg.period now (reported p reporterGUID message now).entries).map Prod.fst).Nodup :=
    List.pairwise_map.mpr (((reported p reporterGUID message now).ordered.filter _).imp ne_of_lt)
  rw [← List.length_map Prod.fst, ← List.toFinset_card_of_nodup hnodup]
  congr 1
  ext key
  rw [reporters, Finset.mem_insert, List.mem_toFinset, List.mem_toFinset, List.mem_map, List.mem_map]
  simp only [mem_kept_reported, List.mem_filter, decide_eq_true_eq]
  constructor
  · rintro ⟨e, rfl | ⟨hmem, -, hfresh⟩, rfl⟩
    · exact .inl rfl
    · exact .inr ⟨e, ⟨hmem, hfresh⟩, rfl⟩
  · rintro (rfl | ⟨e, ⟨hmem, hfresh⟩, rfl⟩)
    · exact ⟨_, .inl rfl, rfl⟩
    · by_cases hsame : e.1 = (getCounter reporterGUID).toNat
      · exact ⟨_, .inl rfl, hsame.symm⟩
      · exact ⟨e, .inr ⟨hmem, hsame, hfresh⟩, rfl⟩

/-- **Reports of spam expire** just if one of the two reports in front, of the players with the lowest counters, has
not expired; and the loop always ends, and not behind the end. -/
theorem spam_reports_expire_iff (p : Player) (cfg : Config) (now : ℤ) (reporterGUID : UInt64) (message : String) :
    Yields (p.addSpamReport cfg now reporterGUID message) (Expires p cfg reporterGUID message now) ↔
      ∃ e ∈ (reported p reporterGUID message now).entries.take 2, expired cfg.period now e = false := by
  obtain ⟨p', hp', hentries, halert⟩ := addSpamReport_yields p cfg now reporterGUID message
  rw [hp']
  constructor
  · rintro ⟨_, ⟨⟩, h⟩
    by_contra hfront
    obtain ⟨e, hmem, hexpired⟩ := exists_expired_left exists_fresh hfront
    rw [← hentries, h.reports] at hmem
    refine Bool.eq_false_iff.mp (fresh_iff.mpr ?_) hexpired
    rcases hmem with rfl | ⟨-, -, hfresh⟩
    · simp
    · exact hfresh
  · intro hfront
    rw [left_eq_kept hfront] at hentries
    refine .ok ⟨fun e => ?_, ?_⟩
    · rw [hentries, mem_kept_reported]
    · rw [halert, hentries, length_kept_reported]

/-! ## Two old reports -/

/-- Players 1 and 2 have reported long ago. -/
def reportedLongAgo : Player where
  spamReports := ⟨[(1, ⟨0, 1, ""⟩), (2, ⟨0, 2, ""⟩)], by decide⟩
  lastSpamAlert := 0

/-- The report of player 2 stays, and counts. -/
theorem not_spam_reports_expire :
    ¬Yields (reportedLongAgo.addSpamReport ⟨2, 120, 120⟩ 1000 3 "")
      (Expires reportedLongAgo ⟨2, 120, 120⟩ 3 "" 1000) := by
  rintro ⟨p', hp', h⟩
  obtain ⟨q, hq, hentries, -⟩ := addSpamReport_yields reportedLongAgo ⟨2, 120, 120⟩ 1000 3 ""
  obtain rfl : q = p' := Except.ok.inj (hq.symm.trans hp')
  have hstays : (2, ⟨0, 2, ""⟩) ∈ q.spamReports.entries := by
    rw [hentries]
    decide
  rcases (h.reports _).mp hstays with hnew | ⟨-, -, hfresh⟩
  · exact absurd hnew (by decide)
  · exact absurd hfresh (by decide)

end Sunstrider.Spam
