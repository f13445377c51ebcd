import Mathlib.Data.List.AList

/-!
# Finite maps by their lookups

A map that an operation changed is described by what every key looks up afterwards. These rules
give that description for the two changes of a key, and read the size of a map off it: where a key
that was there is gone and no key is new, the map is smaller.
-/

namespace Sunstrider.Lib

variable {K V : Type} [DecidableEq K]

theorem lookup_erase_ite (m : AList fun _ : K => V) (a b : K) :
    (m.erase a).lookup b = if b = a then none else m.lookup b := by
  by_cases h : b = a
  · rw [if_pos h, h, AList.lookup_erase]
  · rw [if_neg h, AList.lookup_erase_ne h]

theorem lookup_insert_ite (m : AList fun _ : K => V) (a b : K) (v : V) :
    (m.insert a v).lookup b = if b = a then some v else m.lookup b := by
  by_cases h : b = a
  · rw [if_pos h, h, AList.lookup_insert]
  · rw [if_neg h, AList.lookup_insert_ne h]

variable {k : K} {v : V}

/-- A sweep takes out the key of each stale element of a list, and leaves the others. -/
theorem lookup_sweep {α : Type} (stale : α → Bool) (key : α → K) (l : List α)
    (m : AList fun _ : K => V) :
    (l.foldl (fun m a => if stale a then m.erase (key a) else m) m).lookup k = some v ↔
      m.lookup k = some v ∧ ∀ a ∈ l, stale a = true → key a ≠ k := by
  induction l generalizing m with
  | nil => simp
  | cons a l ih =>
    rw [List.foldl_cons, ih, List.forall_mem_cons, ← and_assoc]
    refine and_congr_left fun _ => ?_
    by_cases hs : stale a = true
    · rw [if_pos hs, lookup_erase_ite]
      by_cases hk : k = key a
      · simp [hs, hk]
      · simp [hs, hk, Ne.symm hk]
    · rw [if_neg hs]
      simp [hs]

section Writes

variable {α S W : Type} {key : α → K} (read : S → K → W) {val : α → W → W} {upd : S → α → S} {l : List α}

/-- A loop that writes one key for each element of a list leaves what is read under the other keys. -/
theorem read_foldl_of_ne
    (hupd : ∀ a ∈ l, ∀ s k, read (upd s a) k = if k = key a then val a (read s k) else read s k)
    (hk : ∀ a ∈ l, key a ≠ k) (s : S) : read (l.foldl upd s) k = read s k := by
  induction l generalizing s with
  | nil => rfl
  | cons a l ih =>
    obtain ⟨ha, hl⟩ := List.forall_mem_cons.mp hupd
    rw [List.foldl_cons, ih hl fun b hb => hk b (List.mem_cons_of_mem a hb), ha,
      if_neg (hk a List.mem_cons_self).symm]

/-- Each element writes its own key, where the keys are distinct. -/
theorem read_foldl_of_mem
    (hupd : ∀ a ∈ l, ∀ s k, read (upd s a) k = if k = key a then val a (read s k) else read s k)
    (hkeys : (l.map key).Nodup) {a : α} (ha : a ∈ l) (s : S) :
    read (l.foldl upd s) (key a) = val a (read s (key a)) := by
  induction l generalizing s with
  | nil => cases ha
  | cons b l ih =>
    obtain ⟨hb, hl⟩ := List.forall_mem_cons.mp hupd
    rw [List.map_cons, List.nodup_cons] at hkeys
    rw [List.foldl_cons]
    obtain rfl | ha := List.mem_cons.mp ha
    · have hother : ∀ b ∈ l, key b ≠ key a := fun b hb h => hkeys.1 (h ▸ List.mem_map_of_mem hb)
      rw [read_foldl_of_ne read hl hother, hb, if_pos rfl]
    · have hne : key a ≠ key b := fun h => hkeys.1 (h ▸ List.mem_map_of_mem ha)
      rw [ih hl hkeys.2 ha, hb, if_neg hne]

end Writes

/-- Every value of a map, changed. -/
def mapValues {W : Type} (f : K → V → W) (m : AList fun _ : K => V) : AList fun _ : K => W where
  entries := m.entries.map fun e => ⟨e.1, f e.1 e.2⟩
  nodupKeys := by
    have hkeys : (m.entries.map fun e => (⟨e.1, f e.1 e.2⟩ : Sigma fun _ : K => W)).keys = m.keys := by
      simp [List.keys, AList.keys]
    rw [List.NodupKeys, hkeys]
    exact m.nodupKeys

theorem lookup_mapValues {W : Type} (f : K → V → W) (m : AList fun _ : K => V) (k : K) :
    (mapValues f m).lookup k = (m.lookup k).map (f k) :=
  List.dlookup_map₂ k

variable {m : AList fun _ : K => V}

theorem mem_keys_iff_lookup {a : K} : a ∈ m.keys ↔ ∃ v, m.lookup a = some v := by
  rw [← AList.mem_keys, ← AList.lookup_isSome, Option.isSome_iff_exists]

/-- The values of a map are distinct in some respect just if no two keys agree in it. -/
theorem nodup_map_values_iff {W : Type} (f : V → W) :
    (m.entries.map fun e => f e.2).Nodup ↔
      ∀ k k' v v', m.lookup k = some v → m.lookup k' = some v' → f v = f v' → k = k' := by
  rw [List.nodup_map_iff_inj_on m.nodupKeys.nodup]
  constructor
  · intro h k k' v v' hv hv' heq
    exact congrArg Sigma.fst
      (h ⟨k, v⟩ (AList.mem_lookup_iff.mp hv) ⟨k', v'⟩ (AList.mem_lookup_iff.mp hv') heq)
  · intro h x hx y hy heq
    have hkey := h x.1 y.1 x.2 y.2 (AList.mem_lookup_iff.mpr hx) (AList.mem_lookup_iff.mpr hy) heq
    exact m.nodupKeys.eq_of_fst_eq hx hy hkey

/-! ## Counting the values -/

/-- The number of values of a kind. -/
def countValues (p : V → Bool) (m : AList fun _ : K => V) : ℕ := m.entries.countP fun e => p e.2

/-- The entries before and after that of a key. -/
theorem exists_entries_of_lookup (h : m.lookup k = some v) :
    ∃ l₁ l₂, m.entries = l₁ ++ ⟨k, v⟩ :: l₂ ∧ m.entries.kerase k = l₁ ++ l₂ := by
  have hmem : k ∈ m.entries.keys := mem_keys_iff_lookup.mpr ⟨v, h⟩
  obtain ⟨b, l₁, l₂, hnot, hm, herase⟩ := List.exists_of_kerase hmem
  have hb : b = v := by
    have hlookup : m.lookup k = some b := AList.mem_lookup_iff.mpr (by rw [hm]; simp)
    exact (Option.some.inj (h.symm.trans hlookup)).symm
  exact ⟨l₁, l₂, hb ▸ hm, herase⟩

/-- Writing a value in place of another changes a number of values by the two. -/
theorem countValues_insert (p : V → Bool) {old : V} (h : m.lookup k = some old) (v : V) :
    countValues p (m.insert k v) + (if p old then 1 else 0) =
      countValues p m + if p v then 1 else 0 := by
  obtain ⟨l₁, l₂, hm, herase⟩ := exists_entries_of_lookup h
  rw [countValues, countValues, AList.entries_insert, List.countP_cons, herase, hm]
  simp only [List.countP_append, List.countP_cons]
  omega

/-- A value under a new key counts as one more. -/
theorem countValues_insert_new (p : V → Bool) (h : m.lookup k = none) (v : V) :
    countValues p (m.insert k v) = countValues p m + if p v then 1 else 0 := by
  have hnot : k ∉ m.entries.keys := fun hk => by
    obtain ⟨w, hw⟩ := mem_keys_iff_lookup.mp hk
    rw [h] at hw
    cases hw
  rw [countValues, countValues, AList.entries_insert, List.countP_cons,
    List.kerase_of_notMem_keys hnot]

/-- Taking out a value lowers a number of values by it. -/
theorem countValues_erase (p : V → Bool) {old : V} (h : m.lookup k = some old) :
    countValues p (m.erase k) + (if p old then 1 else 0) = countValues p m := by
  obtain ⟨l₁, l₂, hm, herase⟩ := exists_entries_of_lookup h
  show (m.entries.kerase k).countP _ + _ = m.entries.countP _
  rw [herase, hm]
  simp only [List.countP_append, List.countP_cons]
  omega

omit [DecidableEq K] in
theorem countValues_le (p : V → Bool) (m : AList fun _ : K => V) :
    countValues p m ≤ m.entries.length := List.countP_le_length

/-- A map that lost a key and gained none is smaller. -/
theorem length_lt_of_lookup {m' : AList fun _ : K => V} {a : K} (ha : m.lookup a = some v)
    (hgone : m'.lookup a = none) (hsub : ∀ b w, m'.lookup b = some w → ∃ w', m.lookup b = some w') :
    m'.entries.length < m.entries.length := by
  have hmem : a ∈ m.keys := mem_keys_iff_lookup.mpr ⟨v, ha⟩
  have hsubset : m'.keys ⊆ m.keys.erase a := by
    intro b hb
    obtain ⟨w, hw⟩ := mem_keys_iff_lookup.mp hb
    have hne : b ≠ a := by
      rintro rfl
      rw [hgone] at hw
      cases hw
    exact (List.mem_erase_of_ne hne).mpr (mem_keys_iff_lookup.mpr (hsub b w hw))
  have hle : m'.keys.length ≤ (m.keys.erase a).length :=
    (List.subperm_of_subset m'.keys_nodup hsubset).length_le
  have hlen : ∀ n : AList fun _ : K => V, n.keys.length = n.entries.length :=
    fun n => List.length_map _
  rw [List.length_erase_of_mem hmem] at hle
  have hpos : 0 < m.keys.length := List.length_pos_of_mem hmem
  rw [← hlen m, ← hlen m']
  omega

end Sunstrider.Lib
