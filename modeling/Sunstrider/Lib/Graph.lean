import Mathlib.Dynamics.PeriodicPts.Defs
import Mathlib.Data.Finset.Card
import Mathlib.Logic.Relation

/-!
# Circles of relations and of partial functions

A relation without circles has a rank on finitely many nodes (`exists_rank`), and a circle of a relation
is the orbit of a periodic point (`exists_circle`), so that each node of it has one successor.

A partial function `f : α → Option α` leads from a node to at most one other (`Leads`). Its circles are
orbits of periodic points too (`OnCircle.isPeriodic`), and the walk of a node ends (`Acc`) just if it
comes to no circle.
-/

namespace Sunstrider.Lib

open Relation Function

variable {α : Type}

/-! ## Relations -/

/-- A relation without circles. -/
def Acyclic (r : α → α → Prop) : Prop := ∀ a, ¬ TransGen r a a

variable {r : α → α → Prop}

theorem Acyclic.mono {s : α → α → Prop} (hs : Acyclic s) (h : ∀ a b, r a b → s a b) : Acyclic r :=
  fun a ha => hs a (TransGen.mono h _ _ ha)

/-- **A rank of a relation without circles** whose steps lead into a finite set: the number of nodes
that can be reached. -/
theorem exists_rank (s : Finset α) (hs : ∀ a b, r a b → b ∈ s) (hr : Acyclic r) :
    ∃ rank : α → ℕ, ∀ a b, r a b → rank b < rank a := by
  classical
  refine ⟨fun a => (s.filter fun b => TransGen r a b).card, fun a b hab => ?_⟩
  refine Finset.card_lt_card ⟨?_, fun hsub => ?_⟩
  · intro c hc
    rw [Finset.mem_filter] at hc ⊢
    exact ⟨hc.1, .head hab hc.2⟩
  · have hb := hsub (Finset.mem_filter.mpr ⟨hs a b hab, .single hab⟩)
    exact hr b (Finset.mem_filter.mp hb).2

variable {a b : α}

/-- A function may be changed at a point that the orbit does not meet. -/
theorem iterate_update_of_ne [DecidableEq α] (f : α → α) {c : α} {n : ℕ}
    (h : ∀ i < n, f^[i] a ≠ c) :
    (update f c b)^[n] a = f^[n] a := by
  induction n with
  | zero => rfl
  | succ n ih =>
    rw [iterate_succ_apply', iterate_succ_apply', ih fun i hi => h i (Nat.lt_succ_of_lt hi)]
    exact update_of_ne (h n (Nat.lt_succ_self n)) b f

/-- A way of a relation, along which each node has one successor. -/
theorem exists_orbit (h : ReflTransGen r a b) :
    ∃ (f : α → α) (n : ℕ), f^[n] a = b ∧ ∀ i < n, r (f^[i] a) (f^[i + 1] a) := by
  classical
  induction h using ReflTransGen.head_induction_on with
  | refl => exact ⟨id, 0, rfl, fun i hi => absurd hi (Nat.not_lt_zero i)⟩
  | @head a a' hab _ ih =>
    obtain ⟨f, n, hn, hr⟩ := ih
    by_cases hmeets : ∃ i ≤ n, f^[i] a' = a
    · -- the way comes back to its start: the round is left out
      obtain ⟨i, hi, rfl⟩ := hmeets
      refine ⟨f, n - i, ?_, fun j hj => ?_⟩
      · rw [← iterate_add_apply, Nat.sub_add_cancel hi, hn]
      · rw [← iterate_add_apply, ← iterate_add_apply, Nat.add_right_comm]
        exact hr (j + i) (by omega)
    · have hne (i : ℕ) (hi : i ≤ n) : f^[i] a' ≠ a := fun he => hmeets ⟨i, hi, he⟩
      have hsame (i : ℕ) (hi : i ≤ n) : (update f a a')^[i + 1] a = f^[i] a' := by
        rw [iterate_succ_apply, update_self]
        exact iterate_update_of_ne f fun j hj => hne j (by omega)
      refine ⟨update f a a', n + 1, (hsame n (le_refl n)).trans hn, fun i hi => ?_⟩
      cases i with
      | zero =>
        rw [hsame 0 (Nat.zero_le n)]
        exact hab
      | succ i =>
        rw [hsame i (by omega), hsame (i + 1) (by omega)]
        exact hr i (by omega)

/-- **A circle of a relation is the orbit of a periodic point.** -/
theorem exists_circle (hab : r a b) (hba : ReflTransGen r b a) :
    ∃ f : α → α, f a = b ∧ a ∈ periodicPts f ∧ ∀ i, r (f^[i] a) (f^[i + 1] a) := by
  classical
  obtain ⟨g, n, hn, hr⟩ := exists_orbit hba
  -- the first time that the way comes to `a`
  have hex : ∃ n, g^[n] b = a := ⟨n, hn⟩
  let k := Nat.find hex
  have hk : g^[k] b = a := Nat.find_spec hex
  have hkn : k ≤ n := Nat.find_min' hex hn
  have hsame (i : ℕ) (hi : i ≤ k) : (update g a b)^[i + 1] a = g^[i] b := by
    rw [iterate_succ_apply, update_self]
    exact iterate_update_of_ne g fun j hj => Nat.find_min hex (hj.trans_le hi)
  have hper : IsPeriodicPt (update g a b) (k + 1) a := (hsame k (le_refl k)).trans hk
  refine ⟨update g a b, update_self a b g, mk_mem_periodicPts (Nat.succ_pos k) hper, fun i => ?_⟩
  have hmod : i % (k + 1) ≤ k := Nat.le_of_lt_succ (Nat.mod_lt i (Nat.succ_pos k))
  have hi := hper.iterate_mod_apply i
  have hnext : (update g a b)^[i + 1] a = (update g a b)^[i % (k + 1) + 1] a := by
    rw [iterate_succ_apply', ← hi, ← iterate_succ_apply' (update g a b)]
  rw [hnext, ← hi, hsame _ hmod]
  cases hj : i % (k + 1) with
  | zero => exact hab
  | succ j =>
    rw [hsame j (by omega)]
    exact hr j (by omega)

/-! ## Partial functions -/

/-- The partial function leads from the one to the other. -/
def Leads (f : α → Option α) (a b : α) : Prop := f a = some b

/-- The walk from the node comes back to it. -/
def OnCircle (f : α → Option α) (a : α) : Prop := TransGen (Leads f) a a

variable {f g : α → Option α}

/-- A walk that ends with less steps taken out ends. -/
theorem Leads.acc_mono (h : ∀ a b, Leads g a b → Leads f a b)
    (ha : Acc (fun b a => Leads f a b) a) :
    Acc (fun b a => Leads g a b) a :=
  Subrelation.accessible (fun {b a} hab => h a b hab) ha

theorem Leads.acc_of_none (h : f a = none) : Acc (fun b a => Leads f a b) a :=
  Acc.intro a fun b hab => by
    unfold Leads at hab
    rw [h] at hab
    cases hab

theorem Leads.acc_of_some (h : f a = some b) (hb : Acc (fun b a => Leads f a b) b) :
    Acc (fun b a => Leads f a b) a :=
  Acc.intro a fun c hac => by
    unfold Leads at hac
    rw [h] at hac
    cases hac
    exact hb

/-- A walk that ends comes to no circle. -/
theorem not_onCircle_of_acc (ha : Acc (fun b a => Leads f a b) a) : ¬ OnCircle f a := by
  have hacc : Acc (TransGen fun b a => Leads f a b) a := ha.transGen
  intro h
  have hswap : TransGen (fun b a => Leads f a b) a a := transGen_swap.mp h
  induction hacc with
  | intro a _ ih => exact ih a hswap ha h hswap

theorem OnCircle.next (h : OnCircle f a) (hab : Leads f a b) : OnCircle f b := by
  obtain ⟨c, hac, hca⟩ := TransGen.head'_iff.mp h
  have hbc : b = c := Option.some.inj (hab.symm.trans hac)
  subst hbc
  exact TransGen.tail' hca hab

/-- The partial function, made total. -/
def follow (f : α → Option α) (a : α) : α := (f a).getD a

theorem Leads.follow_eq (h : Leads f a b) : follow f a = b := by
  unfold Leads at h
  unfold follow
  rw [h]
  rfl

theorem OnCircle.leads (h : OnCircle f a) : Leads f a (follow f a) := by
  obtain ⟨b, hab, -⟩ := TransGen.head'_iff.mp h
  rw [hab.follow_eq]
  exact hab

theorem OnCircle.iterate (h : OnCircle f a) (n : ℕ) : OnCircle f ((follow f)^[n] a) := by
  induction n with
  | zero => exact h
  | succ n ih =>
    rw [iterate_succ_apply']
    exact ih.next ih.leads

/-- **A circle of a partial function is the orbit of a periodic point.** -/
theorem OnCircle.isPeriodic (h : OnCircle f a) : a ∈ periodicPts (follow f) := by
  have hway {b : α} (hab : TransGen (Leads f) a b) : ∃ n, 0 < n ∧ (follow f)^[n] a = b := by
    induction hab with
    | single hab => exact ⟨1, one_pos, hab.follow_eq⟩
    | tail _ hbc ih =>
      obtain ⟨n, -, hn⟩ := ih
      refine ⟨n + 1, Nat.succ_pos n, ?_⟩
      rw [iterate_succ_apply', hn]
      exact hbc.follow_eq
  obtain ⟨n, hpos, hn⟩ := hway h
  exact mk_mem_periodicPts hpos hn

/-- From the successor of a node of a circle, the node before is that node. -/
theorem OnCircle.before_follow (h : OnCircle f a) :
    (follow f)^[minimalPeriod (follow f) (follow f a) - 1] (follow f a) = a := by
  have hpos := minimalPeriod_pos_of_mem_periodicPts h.isPeriodic
  rw [minimalPeriod_apply h.isPeriodic, ← iterate_succ_apply, Nat.succ_eq_add_one,
    Nat.sub_add_cancel hpos, iterate_minimalPeriod]

end Sunstrider.Lib
