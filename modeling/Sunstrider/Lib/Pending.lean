import Mathlib.Data.List.Basic

/-!
# What is pending in a log

Events open keys and close them. A key is pending after an event that opened it, until one closes it. In a
matched log only what is pending is closed, so nothing is closed twice for one opening.
-/

namespace Sunstrider.Lib

variable {E K : Type} {opens closes : E → K → Prop}

/-- An event opens the key, and none behind it closes it. -/
def Pending (opens closes : E → K → Prop) (log : List E) (k : K) : Prop :=
  ∃ before e after, log = before ++ e :: after ∧ opens e k ∧ ∀ e' ∈ after, ¬ closes e' k

/-- Each event closes what is pending before it. -/
def Matched (opens closes : E → K → Prop) (log : List E) : Prop :=
  ∀ before e after, log = before ++ e :: after → ∀ k, closes e k → Pending opens closes before k

variable {log : List E} {e : E}

/-- A part of a log with one more event is that event at the end, or a part of the log. -/
theorem concat_eq_append_cons {before after : List E} {x : E} :
    log ++ [e] = before ++ x :: after ↔
      (before = log ∧ x = e ∧ after = []) ∨
        ∃ after', after = after' ++ [e] ∧ log = before ++ x :: after' := by
  constructor
  · intro h
    obtain rfl | ⟨after', y, rfl⟩ := List.eq_nil_or_concat after
    · obtain ⟨rfl, hx⟩ := List.append_inj' h rfl
      exact .inl ⟨rfl, (List.singleton_inj.mp hx).symm, rfl⟩
    · rw [List.concat_eq_append] at h ⊢
      rw [← List.cons_append, ← List.append_assoc] at h
      obtain ⟨hlog, hy⟩ := List.append_inj' h rfl
      rw [← List.singleton_inj.mp hy]
      exact .inr ⟨after', rfl, hlog⟩
  · rintro (⟨rfl, rfl, rfl⟩ | ⟨after', rfl, rfl⟩)
    · rfl
    · rw [List.append_assoc, List.cons_append]

variable {k : K}

/-- What is pending after one more event: what it opens, and what was pending and is not closed. -/
theorem pending_concat :
    Pending opens closes (log ++ [e]) k ↔
      opens e k ∨ (¬ closes e k ∧ Pending opens closes log k) := by
  constructor
  · rintro ⟨before, x, after, h, hopens, hnot⟩
    obtain ⟨rfl, rfl, rfl⟩ | ⟨after', rfl, rfl⟩ := concat_eq_append_cons.mp h
    · exact .inl hopens
    · obtain ⟨hafter, he⟩ := List.forall_mem_append.mp hnot
      exact .inr ⟨he e (List.mem_singleton_self e), before, x, after', rfl, hopens, hafter⟩
  · rintro (hopens | ⟨hcloses, before, x, after, rfl, hopens, hnot⟩)
    · exact ⟨log, e, [], rfl, hopens, fun _ h => nomatch h⟩
    · refine ⟨before, x, after ++ [e], ?_, hopens, List.forall_mem_append.mpr ⟨hnot, fun y hy => ?_⟩⟩
      · rw [List.append_assoc, List.cons_append]
      · rw [List.mem_singleton.mp hy]
        exact hcloses

/-- What is pending after more events is opened by one of them, or was pending and is closed by none. -/
theorem pending_append {records : List E} (h : Pending opens closes (log ++ records) k) :
    (∃ e ∈ records, opens e k) ∨ (Pending opens closes log k ∧ ∀ e ∈ records, ¬ closes e k) := by
  induction records generalizing log with
  | nil =>
    rw [List.append_nil] at h
    exact .inr ⟨h, fun _ he => nomatch he⟩
  | cons e records ih =>
    rw [List.append_cons] at h
    obtain ⟨e', he', hopens⟩ | ⟨hlog, hnot⟩ := ih h
    · exact .inl ⟨e', List.mem_cons_of_mem e he', hopens⟩
    · obtain hopens | ⟨hcloses, hlog⟩ := pending_concat.mp hlog
      · exact .inl ⟨e, List.mem_cons_self, hopens⟩
      · exact .inr ⟨hlog, List.forall_mem_cons.mpr ⟨hcloses, hnot⟩⟩

theorem not_pending_nil : ¬ Pending opens closes [] k := by
  rintro ⟨before, e, after, h, -⟩
  exact absurd h.symm (List.append_ne_nil_of_right_ne_nil before (List.cons_ne_nil e after))

theorem matched_nil : Matched opens closes [] := by
  intro before e after h
  exact absurd h.symm (List.append_ne_nil_of_right_ne_nil before (List.cons_ne_nil e after))

/-- A log with one more event is matched if what it closes is pending. -/
theorem matched_concat :
    Matched opens closes (log ++ [e]) ↔
      Matched opens closes log ∧ ∀ k, closes e k → Pending opens closes log k := by
  constructor
  · intro h
    refine ⟨fun before x after hlog => h before x (after ++ [e]) ?_, h log e [] rfl⟩
    rw [hlog, List.append_assoc, List.cons_append]
  · rintro ⟨hlog, he⟩ before x after h
    obtain ⟨rfl, rfl, rfl⟩ | ⟨after', rfl, rfl⟩ := concat_eq_append_cons.mp h
    · exact he
    · exact hlog before x after' rfl

end Sunstrider.Lib
