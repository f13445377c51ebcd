import Sunstrider.Lib.Multimap
import Sunstrider.Tickets.TicketMgr

/-!
# Reports of spam

`Player::addSpamReport`. A player keeps the last report of each other player, by the counter of that player's
guid, and the time of the last alert.
-/

namespace Sunstrider.Spam

open Lib (mapAssign)
open Tickets (getCounter)

structure SpamReport where
  time : ℤ
  reporterGUID : UInt64
  message : String
  deriving DecidableEq

/-- `CONFIG_SPAM_REPORT_THRESHOLD`, `CONFIG_SPAM_REPORT_PERIOD` and `CONFIG_SPAM_REPORT_COOLDOWN`. -/
structure Config where
  threshold : UInt32
  period : UInt32
  cooldown : UInt32

inductive Fault
  /-- The iterator goes on from the end. -/
  | pastEnd
  deriving DecidableEq

/-- A map is walked in the order of its keys. -/
structure SpamReports where
  entries : List (ℕ × SpamReport)
  ordered : entries.Pairwise fun e e' => e.1 < e'.1

def expired (period : UInt32) (now : ℤ) (e : ℕ × SpamReport) : Bool := e.2.time < now - period.toNat

/-- The loop of `addSpamReport`, with the reports in front of the iterator and those from it on. -/
def trash (period : UInt32) (now : ℤ) : (front rest : List (ℕ × SpamReport)) → Except Fault (List (ℕ × SpamReport))
  | front, [] => .ok front
  | front, e :: rest =>
    if expired period now e then
      -- `itr = begin()`, and then `++itr` all the same
      match _h : front ++ rest with
      | [] => .error .pastEnd
      | first :: others => trash period now [first] others
    else trash period now (front ++ [e]) rest
termination_by front rest => (front.length + rest.length, rest.length)
decreasing_by
  · have hlength := congrArg List.length _h
    simp only [List.length_append, List.length_cons, List.length_nil] at hlength ⊢
    exact Prod.Lex.left _ _ (by omega)
  · have hsame : (front ++ [e]).length + rest.length = front.length + (e :: rest).length := by
      simp only [List.length_append, List.length_cons, List.length_nil]
      omega
    rw [hsame]
    exact Prod.Lex.right _ (Nat.lt_succ_self _)

/-- The loop only takes reports away. -/
theorem trash_sublist {period : UInt32} {now : ℤ} {front rest l : List (ℕ × SpamReport)}
    (h : trash period now front rest = .ok l) : l.Sublist (front ++ rest) := by
  induction front, rest using trash.induct period now with
  | case1 front =>
    rw [trash] at h
    cases h
    rw [List.append_nil]
  | case2 front e rest hexpired hnil =>
    rw [trash, if_pos hexpired] at h
    split at h
    · cases h
    · next heq =>
      rw [hnil] at heq
      cases heq
  | case3 front e rest hexpired first others hcons ih =>
    rw [trash, if_pos hexpired] at h
    split at h
    · cases h
    · next heq =>
      rw [hcons] at heq
      cases heq
      have hsub := ih h
      rw [List.singleton_append, ← hcons] at hsub
      exact hsub.trans ((List.sublist_cons_self e rest).append_left front)
  | case4 front e rest hkept ih =>
    rw [trash, if_neg hkept] at h
    simpa using ih h

namespace SpamReports

variable (m : SpamReports)

/-- `_spamReports[key] = spr`. -/
def assign (key : ℕ) (spr : SpamReport) : SpamReports :=
  ⟨mapAssign m.entries (key, spr), Lib.mapAssign_ordered m.ordered _⟩

def trashExpired (period : UInt32) (now : ℤ) : Except Fault SpamReports :=
  match h : trash period now [] m.entries with
  | .error fault => .error fault
  | .ok l => .ok ⟨l, m.ordered.sublist (trash_sublist h)⟩

end SpamReports

structure Player where
  spamReports : SpamReports
  lastSpamAlert : ℤ

/-- `now` is what `time(nullptr)` returns. -/
def Player.addSpamReport (p : Player) (cfg : Config) (now : ℤ) (reporterGUID : UInt64) (message : String) :
    Except Fault Player := do
  let spamReports := p.spamReports.assign (getCounter reporterGUID).toNat ⟨now, reporterGUID, message⟩
  let spamReports ← spamReports.trashExpired cfg.period now
  -- If we reported that spammer a little while ago, there's no need to do it again
  if p.lastSpamAlert > now - cfg.cooldown.toNat then
    return { p with spamReports }
  if spamReports.entries.length ≥ cfg.threshold.toNat then
    return { p with spamReports, lastSpamAlert := now }
  return { p with spamReports }

end Sunstrider.Spam
