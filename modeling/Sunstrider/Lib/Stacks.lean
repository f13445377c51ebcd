import Mathlib.Algebra.BigOperators.Group.Finset.Basic
import Mathlib.Algebra.GroupWithZero.Nat
import Mathlib.Algebra.Order.BigOperators.Group.List
import Mathlib.Data.Fintype.Basic

/-!
# Stacks in places

Stacks of things lie in places, at most one in each. A stack has an identity, a kind and a size, read
off by three functions, and every kind has a maximum size.

- `total` is how many things of a kind there are, and `total_update` how a write changes it;
- `Sound` says that no stack is empty or too high, and that no identity is in two places;
- `Fits` says of a plan, places with amounts, that there is room for the amounts;
- `allot` is the greedy plan: every room takes what it can of what is left.
-/

namespace Sunstrider.Lib

variable {σ I K : Type} [DecidableEq σ] {kind : I → K} {size id : I → ℕ}

/-! ## Totals -/

variable {x : σ} {a b : I}

section Totals

variable [DecidableEq K]

/-- How many things of a kind are in one place. -/
def held (kind : I → K) (size : I → ℕ) (k : K) (o : Option I) : ℕ :=
  o.elim 0 fun a => if kind a = k then size a else 0

variable [Fintype σ]

/-- How many things of a kind there are. -/
def total (kind : I → K) (size : I → ℕ) (k : K) (s : σ → Option I) : ℕ :=
  ∑ x, held kind size k (s x)

theorem total_update (kind : I → K) (size : I → ℕ) (k : K) (s : σ → Option I) (x : σ)
    (o : Option I) : total kind size k (Function.update s x o) + held kind size k (s x) =
      total kind size k s + held kind size k o := by
  have hrest : ∑ y ∈ Finset.univ.erase x, held kind size k (Function.update s x o y) =
      ∑ y ∈ Finset.univ.erase x, held kind size k (s y) :=
    Finset.sum_congr rfl fun y hy => by rw [Function.update_of_ne (Finset.ne_of_mem_erase hy)]
  have hnew := Finset.add_sum_erase Finset.univ
    (fun y => held kind size k (Function.update s x o y)) (Finset.mem_univ x)
  have hold := Finset.add_sum_erase Finset.univ (fun y => held kind size k (s y)) (Finset.mem_univ x)
  rw [Function.update_self] at hnew
  unfold total
  omega

/-- A stack that grows by `n`. -/
theorem total_grow (k : K) {s : σ → Option I} {n : ℕ} (ha : s x = some a) (hkind : kind b = kind a)
    (hsize : size b = size a + n) :
    total kind size k (Function.update s x (some b)) =
      total kind size k s + if kind a = k then n else 0 := by
  have h := total_update kind size k s x (some b)
  simp only [ha, held, Option.elim_some, hkind, hsize] at h
  by_cases hk : kind a = k
  · rw [if_pos hk, if_pos hk] at h
    rw [if_pos hk]
    omega
  · rw [if_neg hk, if_neg hk] at h
    rw [if_neg hk]
    omega

/-- A stack in a place that was empty. -/
theorem total_put (k : K) {s : σ → Option I} (hx : s x = none) (b : I) :
    total kind size k (Function.update s x (some b)) =
      total kind size k s + if kind b = k then size b else 0 := by
  have h := total_update kind size k s x (some b)
  rw [hx] at h
  exact h

/-- A stack that loses `n`, or all. -/
theorem total_shrink (k : K) {s : σ → Option I} {n : ℕ} (ha : s x = some a)
    (hkind : kind b = kind a) (hsize : size b + n = size a) :
    total kind size k (Function.update s x (some b)) + (if kind a = k then n else 0) =
      total kind size k s := by
  have hb : Function.update s x (some b) x = some b := Function.update_self ..
  have hgrow := total_grow k hb hkind.symm hsize.symm
  rw [Function.update_idem, ← ha, Function.update_eq_self, hkind] at hgrow
  exact hgrow.symm

theorem total_vacate (k : K) {s : σ → Option I} (ha : s x = some a) :
    total kind size k (Function.update s x none) + (if kind a = k then size a else 0) =
      total kind size k s := by
  have h := total_update kind size k s x none
  rw [ha] at h
  exact h

end Totals

/-! ## Sound places -/

/-- Stacks of sizes that are allowed, each in one place, with identities below the next one. -/
structure Sound (kind : I → K) (size id : I → ℕ) (max : K → ℕ) (next : ℕ) (s : σ → Option I) :
    Prop where
  sizes : ∀ x a, s x = some a → 0 < size a ∧ size a ≤ max (kind a)
  one : ∀ x y a b, s x = some a → s y = some b → id a = id b → x = y
  old : ∀ x a, s x = some a → id a < next

variable {max : K → ℕ} {next : ℕ} {s : σ → Option I}

omit [DecidableEq σ] in
theorem Sound.mono (h : Sound kind size id max next s) {next' : ℕ} (hle : next ≤ next') :
    Sound kind size id max next' s :=
  ⟨h.sizes, h.one, fun x a ha => (h.old x a ha).trans_le hle⟩

omit [DecidableEq σ] in
theorem sound_empty : Sound kind size id max next (fun _ : σ => none) :=
  ⟨fun _ _ h => (nomatch h), fun _ _ _ _ h => (nomatch h), fun _ _ h => (nomatch h)⟩

theorem Sound.vacate (h : Sound kind size id max next s) (x : σ) :
    Sound kind size id max next (Function.update s x none) := by
  have hold : ∀ y a, Function.update s x none y = some a → s y = some a := fun y a hy => by
    by_cases hxy : y = x
    · rw [hxy, Function.update_self] at hy
      cases hy
    · rwa [Function.update_of_ne hxy] at hy
  exact ⟨fun y a hy => h.sizes y a (hold y a hy),
    fun y z a b ha hb => h.one y z a b (hold y a ha) (hold z b hb),
    fun y a hy => h.old y a (hold y a hy)⟩

/-- A stack whose identity is nowhere else is put into a place. -/
theorem Sound.occupy (h : Sound kind size id max next s)
    (hsize : 0 < size a ∧ size a ≤ max (kind a)) (hold : id a < next)
    (hfresh : ∀ y b, y ≠ x → s y = some b → id b ≠ id a) :
    Sound kind size id max next (Function.update s x (some a)) := by
  have hcases : ∀ y b, Function.update s x (some a) y = some b →
      y = x ∧ b = a ∨ y ≠ x ∧ s y = some b := fun y b hy => by
    by_cases hxy : y = x
    · rw [hxy, Function.update_self] at hy
      exact .inl ⟨hxy, (Option.some.inj hy).symm⟩
    · rw [Function.update_of_ne hxy] at hy
      exact .inr ⟨hxy, hy⟩
  refine ⟨fun y b hy => ?_, fun y z b c hb hc hid => ?_, fun y b hy => ?_⟩
  · rcases hcases y b hy with ⟨-, rfl⟩ | ⟨-, hb⟩
    · exact hsize
    · exact h.sizes y b hb
  · rcases hcases y b hb with ⟨hy, rfl⟩ | ⟨hy, hb'⟩ <;>
      rcases hcases z c hc with ⟨hz, rfl⟩ | ⟨hz, hc'⟩
    · exact hy.trans hz.symm
    · exact absurd hid.symm (hfresh z c hz hc')
    · exact absurd hid (hfresh y b hy hb')
    · exact h.one y z b c hb' hc' hid
  · rcases hcases y b hy with ⟨-, rfl⟩ | ⟨-, hb⟩
    · exact hold
    · exact h.old y b hb

/-- A stack changes its size in its place. -/
theorem Sound.resize (h : Sound kind size id max next s) (ha : s x = some a) (hid : id b = id a)
    (hsize : 0 < size b ∧ size b ≤ max (kind b)) :
    Sound kind size id max next (Function.update s x (some b)) :=
  h.occupy hsize (hid ▸ h.old x a ha) fun y c hy hc heq =>
    hy (h.one y x c a hc ha (heq.trans hid))

/-! ## Plans -/

/-- There is room for the amounts of a plan of things of one kind, and every place is named once. -/
structure Fits (kind : I → K) (size : I → ℕ) (max : K → ℕ) (k : K) (s : σ → Option I)
    (plan : List (σ × ℕ)) : Prop where
  apart : (plan.map Prod.fst).Nodup
  room : ∀ p ∈ plan, p.2 ≤ max k ∧
    ∀ a, s p.1 = some a → kind a = k ∧ size a + p.2 ≤ max k

variable {k : K} {plan : List (σ × ℕ)}

omit [DecidableEq σ] in
/-- A plan that fits still does where its places have become empty, or hold less of the same. -/
theorem Fits.mono (h : Fits kind size max k s plan) {s' : σ → Option I}
    (hs : ∀ p ∈ plan, ∀ a, s' p.1 = some a → ∃ b, s p.1 = some b ∧ kind a = kind b ∧
      size a ≤ size b) : Fits kind size max k s' plan := by
  refine ⟨h.apart, fun p hp => ⟨(h.room p hp).1, fun a ha => ?_⟩⟩
  obtain ⟨b, hb, hkind, hsize⟩ := hs p hp a ha
  obtain ⟨hk, hroom⟩ := (h.room p hp).2 b hb
  exact ⟨hkind.trans hk, by omega⟩

omit [DecidableEq σ] in
/-- What happens at other places is of no matter. -/
theorem Fits.congr (h : Fits kind size max k s plan) {s' : σ → Option I}
    (hs : ∀ p ∈ plan, s' p.1 = s p.1) : Fits kind size max k s' plan :=
  h.mono fun p hp a ha => ⟨a, (hs p hp) ▸ ha, rfl, le_rfl⟩

/-- The rest of a plan, after its first place has been written. -/
theorem Fits.rest {p : σ × ℕ} (h : Fits kind size max k s (p :: plan)) (o : Option I) :
    Fits kind size max k (Function.update s p.1 o) plan := by
  have hapart := List.nodup_cons.mp h.apart
  have hrest : Fits kind size max k s plan :=
    ⟨hapart.2, fun q hq => h.room q (List.mem_cons_of_mem p hq)⟩
  refine hrest.congr fun q hq => Function.update_of_ne (fun heq => hapart.1 ?_) _ _
  exact heq ▸ List.mem_map_of_mem hq

omit [DecidableEq σ] in
/-- Smaller amounts fit too. -/
theorem Fits.map_le (h : Fits kind size max k s plan) {f : ℕ → ℕ} (hf : ∀ n, f n ≤ n) :
    Fits kind size max k s (plan.map fun p => (p.1, f p.2)) := by
  refine ⟨by simpa [Function.comp_def] using h.apart, fun q hq => ?_⟩
  obtain ⟨p, hp, rfl⟩ := List.mem_map.mp hq
  obtain ⟨hmax, hroom⟩ := h.room p hp
  exact ⟨(hf p.2).trans hmax, fun a ha => ⟨(hroom a ha).1,
    (Nat.add_le_add_left (hf p.2) _).trans (hroom a ha).2⟩⟩

/-! ## The greedy plan -/

omit [DecidableEq σ] in
/-- How much of `n` things goes to which place, when every room takes what it can of what is left. A
place without room takes no part. -/
def allot : List (σ × ℕ) → ℕ → List (σ × ℕ)
  | [], _ => []
  | (x, r) :: rooms, n =>
    if n = 0 ∨ r = 0 then allot rooms n else (x, min r n) :: allot rooms (n - r)

section Allot

variable {rooms : List (σ × ℕ)} {n : ℕ}

omit [DecidableEq σ]

@[simp] theorem allot_nil (n : ℕ) : allot ([] : List (σ × ℕ)) n = [] := rfl

theorem allot_cons_none (x : σ) {r : ℕ} (rooms : List (σ × ℕ)) (h : n = 0 ∨ r = 0) :
    allot ((x, r) :: rooms) n = allot rooms n := if_pos h

theorem allot_cons_some (x : σ) {r : ℕ} (rooms : List (σ × ℕ)) (h : ¬ (n = 0 ∨ r = 0)) :
    allot ((x, r) :: rooms) n = (x, min r n) :: allot rooms (n - r) := if_neg h

@[simp] theorem allot_zero (rooms : List (σ × ℕ)) : allot rooms 0 = [] := by
  induction rooms with
  | nil => rfl
  | cons p rooms ih =>
    rw [allot_cons_none p.1 rooms (.inl rfl), ih]

/-- Of two lists of rooms, the second gets what the first leaves. -/
theorem allot_append (rooms rooms' : List (σ × ℕ)) (n : ℕ) :
    allot (rooms ++ rooms') n = allot rooms n ++ allot rooms' (n - (rooms.map Prod.snd).sum) := by
  induction rooms generalizing n with
  | nil => rfl
  | cons p rooms ih =>
    obtain ⟨x, r⟩ := p
    rw [List.cons_append, List.map_cons, List.sum_cons]
    by_cases h : n = 0 ∨ r = 0
    · rw [allot_cons_none x _ h, allot_cons_none x _ h, ih]
      rcases h with rfl | rfl
      · rw [Nat.zero_sub, Nat.zero_sub]
      · rw [Nat.zero_add]
    · rw [allot_cons_some x _ h, allot_cons_some x _ h, ih, List.cons_append, Nat.sub_sub]

/-- As much is allotted as there is room for. -/
theorem sum_allot (rooms : List (σ × ℕ)) (n : ℕ) :
    ((allot rooms n).map Prod.snd).sum = min (rooms.map Prod.snd).sum n := by
  induction rooms generalizing n with
  | nil => simp
  | cons p rooms ih =>
    obtain ⟨x, r⟩ := p
    unfold allot
    rw [List.map_cons, List.sum_cons]
    split
    · next h =>
      rw [ih]
      omega
    · rw [List.map_cons, List.sum_cons, ih]
      omega

/-- The places of the plan are places with room, in their order. -/
theorem allot_places_sublist (rooms : List (σ × ℕ)) (n : ℕ) :
    ((allot rooms n).map Prod.fst).Sublist (rooms.map Prod.fst) := by
  induction rooms generalizing n with
  | nil => exact .slnil
  | cons p rooms ih =>
    obtain ⟨x, r⟩ := p
    unfold allot
    split
    · exact (ih n).cons x
    · exact (ih (n - r)).cons_cons x

/-- No place gets nothing, or more than it has room for. -/
theorem mem_allot {p : σ × ℕ} (h : p ∈ allot rooms n) :
    0 < p.2 ∧ ∃ r, (p.1, r) ∈ rooms ∧ p.2 ≤ r := by
  induction rooms generalizing n with
  | nil => cases h
  | cons q rooms ih =>
    obtain ⟨x, r⟩ := q
    unfold allot at h
    split at h
    · obtain ⟨hpos, r', hr', hle⟩ := ih h
      exact ⟨hpos, r', List.mem_cons_of_mem _ hr', hle⟩
    · next hc =>
      rcases List.mem_cons.mp h with rfl | h
      · refine ⟨?_, r, List.mem_cons_self, Nat.min_le_left r n⟩
        show 0 < min r n
        omega
      · obtain ⟨hpos, r', hr', hle⟩ := ih h
        exact ⟨hpos, r', List.mem_cons_of_mem _ hr', hle⟩

/-- **When no place gets `b` or more**, in terms of the rooms: no place has room for `b` or more of
what the places before it leave. -/
theorem allot_lt_iff (rooms : List (σ × ℕ)) (n : ℕ) {b : ℕ} (hb : 0 < b) :
    (∀ p ∈ allot rooms n, p.2 < b) ↔ ∀ before p after, rooms = before ++ p :: after →
      min p.2 (n - (before.map Prod.snd).sum) < b := by
  induction rooms generalizing n with
  | nil => simp
  | cons q rooms ih =>
    have hrest : (∀ before p after, q :: rooms = before ++ p :: after →
          min p.2 (n - (before.map Prod.snd).sum) < b) ↔
        min q.2 n < b ∧ ∀ before p after, rooms = before ++ p :: after →
          min p.2 (n - q.2 - (before.map Prod.snd).sum) < b := by
      constructor
      · refine fun h => ⟨h [] q rooms rfl, fun before p after heq => ?_⟩
        have := h (q :: before) p after (by rw [heq, List.cons_append])
        rwa [List.map_cons, List.sum_cons, ← Nat.sub_sub] at this
      · rintro ⟨hfirst, h⟩ before p after heq
        cases before with
        | nil =>
          cases heq
          exact hfirst
        | cons q' before =>
          cases heq
          rw [List.map_cons, List.sum_cons, ← Nat.sub_sub]
          exact h before p after rfl
    obtain ⟨x, r⟩ := q
    rw [hrest]
    unfold allot
    by_cases hnone : n = 0 ∨ r = 0
    · rw [if_pos hnone, ih]
      have hsame : n - r = n := by omega
      rw [hsame]
      exact ⟨fun h => ⟨by omega, h⟩, fun h => h.2⟩
    · rw [if_neg hnone, List.forall_mem_cons, ih]

/-- The greedy plan fits into rooms that are there. -/
theorem fits_allot (hapart : (rooms.map Prod.fst).Nodup)
    (hroom : ∀ q ∈ rooms, q.2 ≤ max k ∧ ∀ a, s q.1 = some a → q.2 ≠ 0 →
      kind a = k ∧ size a + q.2 ≤ max k) : Fits kind size max k s (allot rooms n) := by
  refine ⟨hapart.sublist (allot_places_sublist rooms n), fun p hp => ?_⟩
  obtain ⟨hpos, r, hr, hle⟩ := mem_allot hp
  obtain ⟨hmax, hfits⟩ := hroom _ hr
  refine ⟨hle.trans hmax, fun a ha => ?_⟩
  obtain ⟨hk, hsize⟩ := hfits a ha (by omega)
  exact ⟨hk, by omega⟩

end Allot

end Sunstrider.Lib
