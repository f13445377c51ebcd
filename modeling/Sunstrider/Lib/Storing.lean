import Sunstrider.Lib.Stacks

/-!
# Storing a stack by a plan

A stack is stored by a plan, place after place. A place that holds a stack lets it grow; an empty one
gets a new stack, which is a clone with the next identity at every place but the last, and the stack
itself there. A place that is gone by then takes nothing. `Stores` is the relation of the places before
and after.

Only the places of the plan are written (`Stores.eq_of_not_mem`), and each of them that is there takes its
amount (`Stores.mem`).
-/

namespace Sunstrider.Lib

variable {σ I K : Type} [DecidableEq σ] {kind : I → K} {size id : I → ℕ} {k : K} {own : ℕ}

/-! ## Stacks in one place each -/

/-- Stacks that are as they should be, each in one place, with identities below the next one. -/
structure Placed (ok : I → Prop) (id : I → ℕ) (next : ℕ) (s : σ → Option I) : Prop where
  each : ∀ x a, s x = some a → ok a
  one : ∀ x y a b, s x = some a → s y = some b → id a = id b → x = y
  old : ∀ x a, s x = some a → id a < next

/-! ## One place -/

/-- One place of a plan takes its amount, with a clone or with the stack itself, where it is there. -/
inductive Puts (there : σ → Prop) (kind : I → K) (size id : I → ℕ) (k : K) (own : ℕ) :
    Bool → σ × ℕ → (σ → Option I) × ℕ → (σ → Option I) × ℕ → Prop
  | grow {clone : Bool} {x : σ} {n next : ℕ} {s : σ → Option I} {a b : I} (is_there : there x)
      (at_x : s x = some a) (kind_eq : kind b = kind a) (id_eq : id b = id a)
      (size_eq : size b = size a + n) :
      Puts there kind size id k own clone (x, n) (s, next) (Function.update s x (some b), next)
  | clone {x : σ} {n next : ℕ} {s : σ → Option I} {b : I} (is_there : there x) (at_x : s x = none)
      (kind_eq : kind b = k) (id_eq : id b = next) (size_eq : size b = n) :
      Puts there kind size id k own true (x, n) (s, next) (Function.update s x (some b), next + 1)
  | self {x : σ} {n next : ℕ} {s : σ → Option I} {b : I} (is_there : there x) (at_x : s x = none)
      (kind_eq : kind b = k) (id_eq : id b = own) (size_eq : size b = n) :
      Puts there kind size id k own false (x, n) (s, next) (Function.update s x (some b), next)
  | miss {clone : Bool} {x : σ} {n next next' : ℕ} {s : σ → Option I} (not_there : ¬ there x)
      (next_le : next ≤ next') : Puts there kind size id k own clone (x, n) (s, next) (s, next')

/-- The places of a plan take their amounts, one after another. -/
inductive Stores (there : σ → Prop) (kind : I → K) (size id : I → ℕ) (k : K) (own : ℕ) :
    List (σ × ℕ) → (σ → Option I) × ℕ → (σ → Option I) × ℕ → Prop
  | nil (s : (σ → Option I) × ℕ) : Stores there kind size id k own [] s s
  | last {c : σ × ℕ} {s t : (σ → Option I) × ℕ} (puts : Puts there kind size id k own false c s t) :
      Stores there kind size id k own [c] s t
  | cons {c d : σ × ℕ} {plan : List (σ × ℕ)} {s t u : (σ → Option I) × ℕ}
      (puts : Puts there kind size id k own true c s t)
      (stores : Stores there kind size id k own (d :: plan) t u) :
      Stores there kind size id k own (c :: d :: plan) s u

variable {there : σ → Prop}

section Puts

variable {clone : Bool} {c : σ × ℕ} {s t : (σ → Option I) × ℕ}

section

variable (h : Puts there kind size id k own clone c s t)

include h

theorem Puts.next_le : s.2 ≤ t.2 := by
  cases h with
  | grow => exact le_rfl
  | clone => exact Nat.le_succ _
  | self => exact le_rfl
  | miss _ hle => exact hle

theorem Puts.eq_update : ∃ o, t.1 = Function.update s.1 c.1 o := by
  cases h with
  | grow => exact ⟨_, rfl⟩
  | clone => exact ⟨_, rfl⟩
  | self => exact ⟨_, rfl⟩
  | miss => exact ⟨_, (Function.update_eq_self ..).symm⟩

theorem Puts.eq_of_ne {x : σ} (hx : x ≠ c.1) : t.1 x = s.1 x := by
  obtain ⟨o, ho⟩ := h.eq_update
  rw [ho, Function.update_of_ne hx]

end

/-- What a place that is there holds afterwards: more of the same, or a new stack. -/
def Taken (kind : I → K) (size id : I → ℕ) (k : K) (own : ℕ) (c : σ × ℕ)
    (s t : (σ → Option I) × ℕ) : Prop :=
  (∃ a b, s.1 c.1 = some a ∧ t.1 c.1 = some b ∧ kind b = kind a ∧ id b = id a ∧
      size b = size a + c.2) ∨
    s.1 c.1 = none ∧ ∃ b, t.1 c.1 = some b ∧ kind b = k ∧ size b = c.2 ∧
      (id b = own ∨ s.2 ≤ id b)

theorem Puts.taken (h : Puts there kind size id k own clone c s t) (hc : there c.1) :
    Taken kind size id k own c s t := by
  cases h with
  | grow _ hx hkind hid hsize =>
    exact .inl ⟨_, _, hx, Function.update_self .., hkind, hid, hsize⟩
  | clone _ hx hkind hid hsize =>
    exact .inr ⟨hx, _, Function.update_self .., hkind, hsize, .inr hid.ge⟩
  | self _ hx hkind hid hsize =>
    exact .inr ⟨hx, _, Function.update_self .., hkind, hsize, .inl hid⟩
  | miss hno => exact absurd hc hno

theorem Puts.total_eq [DecidableEq K] [Fintype σ] [DecidablePred there]
    (h : Puts there kind size id k own clone c s t)
    (hkind : ∀ a, s.1 c.1 = some a → kind a = k) (k' : K) :
    total kind size k' t.1 =
      total kind size k' s.1 + if k = k' then (if there c.1 then c.2 else 0) else 0 := by
  cases h with
  | grow hthere hx hkind' _ hsize =>
    rw [if_pos hthere, ← hkind _ hx]
    exact total_grow k' hx hkind' hsize
  | clone hthere hx hkind' _ hsize =>
    rw [if_pos hthere, ← hkind', ← hsize]
    exact total_put k' hx _
  | self hthere hx hkind' _ hsize =>
    rw [if_pos hthere, ← hkind', ← hsize]
    exact total_put k' hx _
  | miss hno => simp [hno]

end Puts

/-! ## A plan -/

section Stores

variable {plan : List (σ × ℕ)} {s t : (σ → Option I) × ℕ}

/-- Only the places of the plan are written. -/
theorem Stores.eq_of_not_mem (h : Stores there kind size id k own plan s t) {x : σ}
    (hx : x ∉ plan.map Prod.fst) : t.1 x = s.1 x := by
  induction h with
  | nil => rfl
  | last hputs => exact hputs.eq_of_ne fun heq => hx (List.mem_cons.mpr (.inl heq))
  | cons hputs _ ih =>
    have hne := hputs.eq_of_ne fun heq => hx (List.mem_cons.mpr (.inl heq))
    rw [ih fun hmem => hx (List.mem_cons_of_mem _ hmem), hne]

/-- Every place of the plan that is there takes its amount. -/
theorem Stores.mem (h : Stores there kind size id k own plan s t)
    (hapart : (plan.map Prod.fst).Nodup) :
    ∀ c ∈ plan, there c.1 → Taken kind size id k own c s t := by
  induction h with
  | nil =>
    intro c hc
    cases hc
  | last hputs =>
    intro c hc
    rw [List.mem_singleton.mp hc]
    exact hputs.taken
  | @cons c d plan s t u hputs hstores ih =>
    obtain ⟨hnew, hapart'⟩ := List.nodup_cons.mp hapart
    intro e he hthere
    rcases List.mem_cons.mp he with rfl | he
    · have hkept := hstores.eq_of_not_mem hnew
      rcases hputs.taken hthere with ⟨a, b, ha, hb, h⟩ | ⟨ha, b, hb, h⟩
      · exact .inl ⟨a, b, ha, hkept.trans hb, h⟩
      · exact .inr ⟨ha, b, hkept.trans hb, h⟩
    · have hne : e.1 ≠ c.1 := fun heq => hnew (heq ▸ List.mem_map_of_mem he)
      have hsame := hputs.eq_of_ne hne
      rcases ih hapart' e he hthere with ⟨a, b, ha, h⟩ | ⟨ha, b, hb, hkind, hsize, hid⟩
      · exact .inl ⟨a, b, hsame.symm.trans ha, h⟩
      · exact .inr ⟨hsame.symm.trans ha, b, hb, hkind, hsize, hid.imp_right hputs.next_le.trans⟩

end Stores

end Sunstrider.Lib
