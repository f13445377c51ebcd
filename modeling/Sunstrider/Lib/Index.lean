import Mathlib.Logic.Function.Basic

/-!
# An index beside a store

A store maps keys to objects, each under a handle and with a name, and an index maps names to the keys
and handles of the objects. The index is `Exact` if it finds just the objects of the store. The rules say
when the index stays exact where the two are written one after the other: objects that are put under a
key (`Exact.put_iff`), renamed (`Exact.rename`) or erased (`Exact.erase_iff`), and when it is exact after a
store was emptied and filled again with the index left as it was (`exact_loaded_iff`).
-/

namespace Sunstrider.Lib.Index

open Function (update)

variable {K H N : Type} {store : K → Option (H × N)} {index : N → Option (K × H)}

/-- The index finds an object by a name just if the store holds it under that name. -/
def Exact (store : K → Option (H × N)) (index : N → Option (K × H)) : Prop :=
  ∀ n k h, index n = some (k, h) ↔ store k = some (h, n)

/-- No two keys have objects of one name. -/
def Distinct (store : K → Option (H × N)) : Prop :=
  ∀ k k' h h' n, store k = some (h, n) → store k' = some (h', n) → k = k'

variable {k : K} {h : H} {n : N}

theorem Exact.indexed (hx : Exact store index) (hk : store k = some (h, n)) :
    index n = some (k, h) := (hx n k h).mpr hk

/-- A name that no object has is not in the index. -/
theorem Exact.index_eq_none (hx : Exact store index) (hn : ∀ k h, store k ≠ some (h, n)) :
    index n = none := by
  cases hi : index n with
  | none => rfl
  | some p => exact absurd ((hx n p.1 p.2).mp hi) (hn p.1 p.2)

variable [DecidableEq K] [DecidableEq N]

/-- An object that is put under a key must not take the place of one with another name. -/
theorem Exact.put_iff (hx : Exact store index) (hd : Distinct (update store k (some (h, n)))) :
    Exact (update store k (some (h, n))) (update index n (some (k, h))) ↔
      ∀ o ∈ store k, o.2 = n := by
  constructor
  · rintro hput ⟨h', n'⟩ hold
    by_contra hne
    have hindex : update index n (some (k, h)) n' = some (k, h') := by
      rw [Function.update_of_ne hne]
      exact hx.indexed hold
    have hstore := (hput n' k h').mp hindex
    rw [Function.update_self] at hstore
    cases hstore
    exact hne rfl
  · intro hkept n₀ k₀ h₀
    by_cases hk : k₀ = k
    · subst hk
      rw [Function.update_self]
      by_cases hn : n₀ = n
      · subst hn
        simp [Function.update_self]
      · have hno : store k₀ ≠ some (h₀, n₀) := fun hs => hn (hkept _ hs)
        rw [Function.update_of_ne hn, hx n₀ k₀ h₀]
        simp [hno, Ne.symm hn]
    · rw [Function.update_of_ne hk]
      by_cases hn : n₀ = n
      · subst hn
        have hno : store k₀ ≠ some (h₀, n₀) := fun hs =>
          hk (hd k₀ k h₀ h n₀ (by rw [Function.update_of_ne hk, hs]) (Function.update_self ..))
        simp [Function.update_self, hno, Ne.symm hk]
      · rw [Function.update_of_ne hn, hx n₀ k₀ h₀]

/-- Renaming an object, also to the name it has. -/
theorem Exact.rename (hx : Exact store index) {m : N} (hk : store k = some (h, m))
    (hd : Distinct (update store k (some (h, n)))) :
    Exact (update store k (some (h, n))) (update (update index m none) n (some (k, h))) := by
  intro n₀ k₀ h₀
  by_cases hk₀ : k₀ = k
  · subst hk₀
    rw [Function.update_self]
    by_cases hn : n₀ = n
    · subst hn
      simp [Function.update_self]
    · rw [Function.update_of_ne hn]
      by_cases hm : n₀ = m
      · subst hm
        simp [Function.update_self, Ne.symm hn]
      · rw [Function.update_of_ne hm, hx n₀ k₀ h₀, hk]
        simp [Ne.symm hm, Ne.symm hn]
  · rw [Function.update_of_ne hk₀]
    by_cases hn : n₀ = n
    · subst hn
      have hno : store k₀ ≠ some (h₀, n₀) := fun hs =>
        hk₀ (hd k₀ k h₀ h n₀ (by rw [Function.update_of_ne hk₀, hs]) (Function.update_self ..))
      simp [Function.update_self, hno, Ne.symm hk₀]
    · rw [Function.update_of_ne hn]
      by_cases hm : n₀ = m
      · subst hm
        have hno : store k₀ ≠ some (h₀, n₀) := fun hs => by
          have h₁ := hx.indexed hs
          rw [hx.indexed hk] at h₁
          cases h₁
          exact hk₀ rfl
        simp [Function.update_self, hno]
      · rw [Function.update_of_ne hm, hx n₀ k₀ h₀]

/-- An erased key must be erased together with the name of its object, and where there is no object, no
name may be erased that is in use. -/
theorem Exact.erase_iff (hx : Exact store index) (k : K) (n : N) :
    Exact (update store k none) (update index n none) ↔
      match store k with
      | some o => o.2 = n
      | none => index n = none := by
  cases hk : store k with
  | some o =>
    obtain ⟨h, m⟩ := o
    constructor
    · intro herase
      by_contra hne
      have hindex : update index n none m = some (k, h) := by
        rw [Function.update_of_ne hne]
        exact hx.indexed hk
      have hstore := (herase m k h).mp hindex
      rw [Function.update_self] at hstore
      cases hstore
    · rintro rfl n₀ k₀ h₀
      by_cases hk₀ : k₀ = k
      · subst hk₀
        rw [Function.update_self]
        by_cases hn : n₀ = m
        · simp [hn]
        · rw [Function.update_of_ne hn, hx n₀ k₀ h₀, hk]
          simp [Ne.symm hn]
      · rw [Function.update_of_ne hk₀]
        by_cases hn : n₀ = m
        · subst hn
          have hno : store k₀ ≠ some (h₀, n₀) := fun hs => by
            have h₁ := hx.indexed hs
            rw [hx.indexed hk] at h₁
            cases h₁
            exact hk₀ rfl
          simp [hno]
        · rw [Function.update_of_ne hn, hx n₀ k₀ h₀]
  | none =>
    have hstore : update store k none = store := by rw [← hk, Function.update_eq_self]
    rw [hstore]
    constructor
    · intro herase
      refine hx.index_eq_none fun k₀ h₀ hs => ?_
      have hindex := (herase n k₀ h₀).mpr hs
      rw [Function.update_self] at hindex
      cases hindex
    · intro hn
      rwa [← hn, Function.update_eq_self]

/-! ## Filling an empty store -/

section Load

variable (handle : K → H) (rows : List (K × N))

/-- The name in the last row of a key. -/
def lastName (k : K) : Option N := (rows.reverse.find? fun r => r.1 = k).map Prod.snd

/-- The key in the last row with a name. -/
def lastKey (n : N) : Option K := (rows.reverse.find? fun r => r.2 = n).map Prod.fst

/-- The store after the rows. -/
def loadedStore (k : K) : Option (H × N) := (lastName rows k).map fun n => (handle k, n)

/-- The index after the rows: what they do not name is as it was. -/
def loadedIndex (index : N → Option (K × H)) (n : N) : Option (K × H) :=
  match lastKey rows n with
  | some k => some (k, handle k)
  | none => index n

variable {handle rows} {r : K × N}

omit [DecidableEq N] in
theorem lastName_cons (k : K) :
    lastName (r :: rows) k = (lastName rows k).or (if r.1 = k then some r.2 else none) := by
  simp only [lastName, List.reverse_cons, List.find?_append, List.find?_singleton, Option.map_or]
  by_cases h : r.1 = k <;> simp [h]

omit [DecidableEq K] in
theorem lastKey_cons (n : N) :
    lastKey (r :: rows) n = (lastKey rows n).or (if r.2 = n then some r.1 else none) := by
  simp only [lastKey, List.reverse_cons, List.find?_append, List.find?_singleton, Option.map_or]
  by_cases h : r.2 = n <;> simp [h]

omit [DecidableEq K] in
theorem lastKey_isSome : (lastKey rows n).isSome ↔ ∃ r ∈ rows, r.2 = n := by
  simp [lastKey]

/-- The last row of a key is the last with its name, or another key has the name in a later row. -/
theorem lastKey_of_lastName (h : lastName rows k = some n) : ∃ k', lastKey rows n = some k' := by
  rw [← Option.isSome_iff_exists, lastKey_isSome]
  obtain ⟨r, hr, rfl⟩ := Option.map_eq_some_iff.mp h
  exact ⟨r, List.mem_reverse.mp (List.mem_of_find?_eq_some hr), rfl⟩

/-- **When the index is exact after the rows.** What it found before dangles: so each name that it held
or that a row has must be the name in the last row of a key. -/
theorem exact_loaded_iff (hstale : ∀ n k h, index n = some (k, h) → h ≠ handle k)
    (hd : Distinct (loadedStore handle rows)) :
    Exact (loadedStore handle rows) (loadedIndex handle rows index) ↔
      ∀ n, ((index n).isSome ∨ ∃ r ∈ rows, r.2 = n) →
        ∃ k, lastKey rows n = some k ∧ lastName rows k = some n := by
  constructor
  · intro hx n hn
    cases hk : lastKey rows n with
    | some k =>
      have hindex : loadedIndex handle rows index n = some (k, handle k) := by rw [loadedIndex, hk]
      obtain ⟨m, hm, heq⟩ := Option.map_eq_some_iff.mp ((hx n k (handle k)).mp hindex)
      exact ⟨k, rfl, by rw [hm]; exact congrArg (fun o : H × N => some o.2) heq⟩
    | none =>
      have hnone : ¬ ∃ r ∈ rows, r.2 = n := by rw [← lastKey_isSome, hk]; exact Bool.noConfusion
      obtain ⟨⟨k, h⟩, hold⟩ := Option.isSome_iff_exists.mp (hn.resolve_right hnone)
      have hindex : loadedIndex handle rows index n = some (k, h) := by rw [loadedIndex, hk, hold]
      obtain ⟨m, -, heq⟩ := Option.map_eq_some_iff.mp ((hx n k h).mp hindex)
      exact absurd (congrArg Prod.fst heq).symm (hstale n k h hold)
  · intro hcovers n k h
    constructor
    · intro hindex
      cases hk : lastKey rows n with
      | some k' =>
        rw [loadedIndex, hk] at hindex
        cases hindex
        obtain ⟨k'', hk'', hname⟩ := hcovers n (.inr (lastKey_isSome.mp (by rw [hk]; rfl)))
        rw [hk] at hk''
        cases hk''
        rw [loadedStore, hname]
        rfl
      | none =>
        have hold : index n = some (k, h) := by rwa [loadedIndex, hk] at hindex
        obtain ⟨k', hk', -⟩ := hcovers n (.inl (by rw [hold]; rfl))
        rw [hk] at hk'
        cases hk'
    · intro hstore
      obtain ⟨m, hm, heq⟩ := Option.map_eq_some_iff.mp hstore
      cases heq
      obtain ⟨k', hk'⟩ := lastKey_of_lastName hm
      obtain ⟨k'', hk'', hname⟩ := hcovers n (.inr (lastKey_isSome.mp (by rw [hk']; rfl)))
      have hsame : k'' = k :=
        hd k'' k (handle k'') (handle k) n (by rw [loadedStore, hname]; rfl) hstore
      rw [loadedIndex, hk'', hsame]

end Load

end Sunstrider.Lib.Index
