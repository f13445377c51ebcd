import Sunstrider.Lib.Keyed
import Sunstrider.Lib.Run
import Sunstrider.Reputation.ReputationMgr

/-!
# Flags and counters of factions

What the setters of a faction's state do to each of its flags. `SetVisible` only sets VISIBLE, `SetAtWar`
only changes AT_WAR, `SetInactive` only changes INACTIVE, and none of them touches the standing. What a
loaded row makes of a state follows from these, and so does what an operation adds to the counters.
-/

namespace Sunstrider.Reputation

open Sunstrider.Lib

/-! ## Bits -/

theorem has_or (f x y : Flags) : has (f ||| x) y = (has f y || has x y) := by
  rw [has, has, has, BitVec.setWidth_eq, BitVec.and_comm, BitVec.and_or_distrib_left,
    BitVec.and_comm y f, BitVec.and_comm y x, Bool.eq_iff_iff]
  simp only [bne_iff_ne, ne_eq, BitVec.ofNat_eq_ofNat, BitVec.or_eq_zero_iff, Bool.or_eq_true,
    not_and_or]

variable {x y : Flags}

theorem has_clear {f : Flags} (hxy : has x y = false) : has (f &&& ~~~x) y = has f y := by
  have hdisjoint : ~~~x &&& y = y := by
    rw [has, BitVec.setWidth_eq, bne_eq_false_iff_eq] at hxy
    ext i hi
    have hbit := congrArg (fun v : BitVec 8 => v[i]) hxy
    simp only [BitVec.getElem_and, BitVec.ofNat_eq_ofNat, BitVec.getElem_zero] at hbit
    cases hx : x[i] <;> cases hy : y[i] <;> simp_all
  rw [has, has, BitVec.setWidth_eq, BitVec.and_assoc, hdisjoint]

theorem has_clear_self (f x : Flags) : has (f &&& ~~~x) x = false := by
  have hzero : ~~~x &&& x = 0 := by
    ext i hi
    simp
  rw [has, BitVec.setWidth_eq, BitVec.and_assoc, hzero]
  simp

namespace FactionState

/-- A flag is neither VISIBLE nor AT_WAR nor INACTIVE. -/
def Fixed (y : Flags) : Prop :=
  has Flags.visible y = false ∧ has Flags.atWar y = false ∧ has Flags.inactive y = false

instance (y : Flags) : Decidable (Fixed y) := inferInstanceAs (Decidable (_ ∧ _ ∧ _))

/-- The states are those of one faction, with one standing, and agree on what is to be deleted and on
the flags that no setter changes. -/
structure Alike (f f' : FactionState) : Prop where
  id : f'.id = f.id
  reputationListID : f'.reputationListID = f.reputationListID
  standing : f'.standing = f.standing
  needDelete : f'.needDelete = f.needDelete
  fixes : ∀ y, Fixed y → has f'.flags y = has f.flags y

/-- A setter was at work: it marked what it changed. -/
structure Tuned (f f' : FactionState) : Prop extends Alike f f' where
  noted : f' = f ∨ f'.needSave = true

section Relations

variable {f g k : FactionState}

theorem Alike.refl (f : FactionState) : Alike f f := ⟨rfl, rfl, rfl, rfl, fun _ _ => rfl⟩

theorem Alike.trans (h : Alike f g) (h' : Alike g k) : Alike f k where
  id := h'.id.trans h.id
  reputationListID := h'.reputationListID.trans h.reputationListID
  standing := h'.standing.trans h.standing
  needDelete := h'.needDelete.trans h.needDelete
  fixes y hy := (h'.fixes y hy).trans (h.fixes y hy)

theorem Alike.isPeaceful (h : Alike f g) : g.isPeaceful = f.isPeaceful := by
  rw [FactionState.isPeaceful, FactionState.isPeaceful, h.fixes _ (by decide),
    h.fixes _ (by decide)]

theorem Tuned.refl (f : FactionState) : Tuned f f := ⟨.refl f, .inl rfl⟩

theorem Tuned.needSave (h : Tuned f g) (hf : f.needSave = true) : g.needSave = true := by
  obtain rfl | hg := h.noted
  · exact hf
  · exact hg

theorem Tuned.trans (h : Tuned f g) (h' : Tuned g k) : Tuned f k := by
  refine ⟨h.toAlike.trans h'.toAlike, ?_⟩
  obtain rfl | hg := h.noted
  · exact h'.noted
  · exact .inr (h'.needSave hg)

end Relations

variable (f : FactionState) (on : Bool)

/-! ## One flag -/

theorem has_setFlag (hx : has x x = true) : has (f.setFlag x on).flags x = on := by
  rw [setFlag]
  split
  · next h => exact h
  · cases on with
    | true => rw [if_pos rfl, has_or, hx, Bool.or_true]
    | false => exact has_clear_self f.flags x

theorem has_setFlag_of_ne (hxy : has x y = false) :
    has (f.setFlag x on).flags y = has f.flags y := by
  rw [setFlag]
  split
  · rfl
  · cases on with
    | true => rw [if_pos rfl, has_or, hxy, Bool.or_false]
    | false => exact has_clear hxy

theorem tuned_setFlag (hx : ∀ y, Fixed y → has x y = false) : Tuned f (f.setFlag x on) := by
  have hfixes : ∀ y, Fixed y → has (f.setFlag x on).flags y = has f.flags y :=
    fun y hy => f.has_setFlag_of_ne on (hx y hy)
  rw [setFlag] at hfixes ⊢
  split
  · exact .refl f
  · next h =>
    rw [if_neg h] at hfixes
    exact ⟨⟨rfl, rfl, rfl, rfl, hfixes⟩, .inr rfl⟩

/-! ## SetVisible -/

theorem tuned_setVisible : Tuned f f.setVisible := by
  rw [setVisible]
  split
  · exact .refl f
  · exact f.tuned_setFlag true fun _ hy => hy.1

theorem has_setVisible_visible :
    has f.setVisible.flags .visible = (has f.flags .visible || !f.isForced) := by
  rw [setVisible]
  split
  next h => rw [h, Bool.not_true, Bool.or_false]
  next h =>
    rw [f.has_setFlag true (by decide)]
    simp [h]

theorem has_setVisible_eq : has f.setVisible.flags .visible =
    (has f.flags .visible || f.becomesVisible) := by
  rw [has_setVisible_visible, becomesVisible]
  cases has f.flags .visible <;> simp

theorem not_visible_of_becomesVisible (h : f.becomesVisible = true) :
    has f.flags .visible = false := by
  rw [becomesVisible, Bool.and_eq_true] at h
  simpa using h.2

theorem has_setVisible_of_ne (hy : has Flags.visible y = false) :
    has f.setVisible.flags y = has f.flags y := by
  rw [setVisible]
  split
  · rfl
  · exact f.has_setFlag_of_ne true hy

/-! ## SetAtWar -/

theorem tuned_setAtWar : Tuned f (f.setAtWar on) := by
  rw [setAtWar]
  split
  · exact .refl f
  · exact f.tuned_setFlag on fun _ hy => hy.2.1

theorem has_setAtWar_atWar :
    has (f.setAtWar on).flags .atWar = if on && f.isPeaceful then has f.flags .atWar else on := by
  rw [setAtWar]
  split
  · rfl
  · exact f.has_setFlag on (by decide)

theorem has_setAtWar_of_ne (hy : has Flags.atWar y = false) :
    has (f.setAtWar on).flags y = has f.flags y := by
  rw [setAtWar]
  split
  · rfl
  · exact f.has_setFlag_of_ne on hy

/-! ## SetInactive -/

theorem tuned_setInactive : Tuned f (f.setInactive on) := by
  rw [setInactive]
  split
  · exact .refl f
  · exact f.tuned_setFlag on fun _ hy => hy.2.2

theorem has_setInactive_inactive :
    has (f.setInactive on).flags .inactive =
      if on && (f.isForced || !has f.flags .visible) then has f.flags .inactive else on := by
  rw [setInactive]
  split
  · rfl
  · exact f.has_setFlag on (by decide)

theorem has_setInactive_of_ne (hy : has Flags.inactive y = false) :
    has (f.setInactive on).flags y = has f.flags y := by
  rw [setInactive]
  split
  · rfl
  · exact f.has_setFlag_of_ne on hy

/-! ## A loaded row -/

variable (row : ReputationRow) (rank : ReputationRank)

theorem load_eq : f.load row rank =
    ((((({ f with standing := row.standing } : FactionState).loadVisible row).loadInactive
      row).loadAtWar row).loadHostile rank).loadMark row := rfl

@[simp] theorem flags_loadMark : (f.loadMark row).flags = f.flags := by
  rw [loadMark]
  split <;> rfl

theorem tuned_loadVisible : Tuned f (f.loadVisible row) := by
  rw [loadVisible]
  split
  · exact f.tuned_setVisible
  · exact .refl f

theorem tuned_loadInactive : Tuned f (f.loadInactive row) := by
  rw [loadInactive]
  split
  · exact f.tuned_setInactive true
  · exact .refl f

theorem tuned_loadAtWar : Tuned f (f.loadAtWar row) := by
  rw [loadAtWar]
  split
  · exact f.tuned_setAtWar true
  · split
    · exact f.tuned_setAtWar false
    · exact .refl f

theorem tuned_loadHostile : Tuned f (f.loadHostile rank) := by
  rw [loadHostile]
  split
  · exact f.tuned_setAtWar true
  · exact .refl f

theorem alike_loadMark : Alike f (f.loadMark row) := by
  rw [loadMark]
  split
  · exact ⟨rfl, rfl, rfl, rfl, fun _ _ => rfl⟩
  · exact .refl f

theorem tuned_load : Tuned { f with standing := row.standing }
    (((({ f with standing := row.standing } : FactionState).loadVisible row).loadInactive
      row).loadAtWar row |>.loadHostile rank) :=
  ((tuned_loadVisible _ row).trans (tuned_loadInactive _ row)).trans
    ((tuned_loadAtWar _ row).trans (tuned_loadHostile _ rank))

/-- A loaded state is one of the faction, with the standing of the row. -/
theorem alike_load : Alike { f with standing := row.standing } (f.load row rank) :=
  (f.tuned_load row rank).toAlike.trans (alike_loadMark _ row)

theorem isPeaceful_load : (f.load row rank).isPeaceful = f.isPeaceful :=
  (f.alike_load row rank).isPeaceful

theorem has_loadVisible_of_ne (hy : has Flags.visible y = false) :
    has (f.loadVisible row).flags y = has f.flags y := by
  rw [loadVisible]
  split
  · exact f.has_setVisible_of_ne hy
  · rfl

theorem has_loadInactive_of_ne (hy : has Flags.inactive y = false) :
    has (f.loadInactive row).flags y = has f.flags y := by
  rw [loadInactive]
  split
  · exact f.has_setInactive_of_ne true hy
  · rfl

theorem has_loadAtWar_of_ne (hy : has Flags.atWar y = false) :
    has (f.loadAtWar row).flags y = has f.flags y := by
  rw [loadAtWar]
  split
  · exact f.has_setAtWar_of_ne true hy
  · split
    · exact f.has_setAtWar_of_ne false hy
    · rfl

theorem has_loadHostile_of_ne (hy : has Flags.atWar y = false) :
    has (f.loadHostile rank).flags y = has f.flags y := by
  rw [loadHostile]
  split
  · exact f.has_setAtWar_of_ne true hy
  · rfl

/-- A faction is visible by its default or by the row. -/
theorem has_load_visible : has (f.load row rank).flags .visible =
    (has f.flags .visible || (has row.flags .visible && f.becomesVisible)) := by
  rw [load_eq, flags_loadMark, has_loadHostile_of_ne _ _ (by decide),
    has_loadAtWar_of_ne _ _ (by decide), has_loadInactive_of_ne _ _ (by decide), loadVisible]
  split
  next h =>
    rw [has_setVisible_eq, h, Bool.true_and]
    rfl
  next h => simp [h]

/-- An inactive faction is one by its default, or by the row and visible. -/
theorem has_load_inactive : has (f.load row rank).flags .inactive =
    (has f.flags .inactive ||
      (has row.flags .inactive && !f.isForced && has (f.load row rank).flags .visible)) := by
  have hvisible : has (f.load row rank).flags .visible =
      has (loadVisible { f with standing := row.standing } row).flags .visible := by
    rw [load_eq, flags_loadMark, has_loadHostile_of_ne _ _ (by decide),
      has_loadAtWar_of_ne _ _ (by decide), has_loadInactive_of_ne _ _ (by decide)]
  have hold : has (loadVisible { f with standing := row.standing } row).flags .inactive =
      has f.flags .inactive := has_loadVisible_of_ne _ _ (by decide)
  have hforced : (loadVisible { f with standing := row.standing } row).isForced = f.isForced :=
    has_loadVisible_of_ne _ _ (by decide)
  rw [hvisible, load_eq, flags_loadMark, has_loadHostile_of_ne _ _ (by decide),
    has_loadAtWar_of_ne _ _ (by decide), loadInactive]
  split
  next h =>
    rw [has_setInactive_inactive, hold, hforced, h]
    cases f.isForced <;>
      cases has (loadVisible { f with standing := row.standing } row).flags .visible <;> simp
  next h => simp [h, hold]

theorem has_loadAtWar_atWar : has (f.loadAtWar row).flags .atWar = true ↔
    if has row.flags .atWar then f.isPeaceful = false ∨ has f.flags .atWar = true
    else has f.flags .visible = false ∧ has f.flags .atWar = true := by
  rw [loadAtWar]
  split
  next h =>
    rw [has_setAtWar_atWar, Bool.true_and]
    cases f.isPeaceful <;> simp
  next h =>
    split
    next hv => simp [has_setAtWar_atWar, hv]
    next hv => simp [hv]

theorem has_loadHostile_atWar : has (f.loadHostile rank).flags .atWar = true ↔
    rank ≤ .hostile ∧ f.isPeaceful = false ∨ has f.flags .atWar = true := by
  rw [loadHostile]
  split
  next h =>
    rw [has_setAtWar_atWar, Bool.true_and]
    cases f.isPeaceful <;> simp [h]
  next h => simp [h]

/-- Whether a loaded faction is at war: as the row says, unless that is kept by force or the faction is
not visible, and always with a hostile one. -/
theorem has_load_atWar : has (f.load row rank).flags .atWar = true ↔
    f.isPeaceful = false ∧ (has row.flags .atWar = true ∨ rank ≤ .hostile) ∨
      has f.flags .atWar = true ∧
        (has row.flags .atWar = true ∨ has (f.load row rank).flags .visible = false) := by
  have hvisible : has (f.load row rank).flags .visible =
      has ((loadVisible { f with standing := row.standing } row).loadInactive row).flags .visible := by
    rw [load_eq, flags_loadMark, has_loadHostile_of_ne _ _ (by decide),
      has_loadAtWar_of_ne _ _ (by decide)]
  have htuned := (tuned_loadVisible { f with standing := row.standing } row).trans
    (tuned_loadInactive _ row)
  have hwar : has ((loadVisible { f with standing := row.standing } row).loadInactive row).flags
      .atWar = has f.flags .atWar :=
    (has_loadInactive_of_ne _ row (by decide)).trans (has_loadVisible_of_ne _ row (by decide))
  have hpeace : (((loadVisible { f with standing := row.standing } row).loadInactive
      row).loadAtWar row).isPeaceful = f.isPeaceful :=
    (htuned.trans (tuned_loadAtWar _ row)).isPeaceful
  rw [hvisible, load_eq, flags_loadMark, has_loadHostile_atWar, has_loadAtWar_atWar, hpeace,
    htuned.isPeaceful, hwar]
  cases has row.flags .atWar <;> simp <;> tauto

end FactionState

/-! ## SetOneFactionReputation -/

/-- The state that `SetOneFactionReputation` writes. -/
structure SetTo (f : FactionState) (baseRep value : ℤ) (f' : FactionState) : Prop where
  tuned : FactionState.Tuned { f with standing := value - baseRep, needSave := true } f'
  visible : has f'.flags .visible = (has f.flags .visible || f.becomesVisible)
  inactive : has f'.flags .inactive = has f.flags .inactive
  atWar : has f'.flags .atWar = true ↔
    has f.flags .atWar = true ∨ reputationToRank value ≤ .hostile ∧ f.isPeaceful = false

theorem setTo_setStanding (f : FactionState) (baseRep value : ℤ) :
    SetTo f baseRep value (ReputationMgr.setStanding f baseRep value) := by
  have htuned := FactionState.tuned_setVisible
    { f with standing := value - baseRep, needSave := true }
  have hvisible : has (FactionState.setVisible
      { f with standing := value - baseRep, needSave := true }).flags .visible =
      (has f.flags .visible || f.becomesVisible) := FactionState.has_setVisible_eq _
  have hinactive : has (FactionState.setVisible
      { f with standing := value - baseRep, needSave := true }).flags .inactive =
      has f.flags .inactive := FactionState.has_setVisible_of_ne _ (by decide)
  have hwar : has (FactionState.setVisible
      { f with standing := value - baseRep, needSave := true }).flags .atWar =
      has f.flags .atWar := FactionState.has_setVisible_of_ne _ (by decide)
  rw [ReputationMgr.setStanding]
  split
  next hrank =>
    refine ⟨htuned.trans (FactionState.tuned_setAtWar _ true), ?_, ?_, ?_⟩
    · rw [FactionState.has_setAtWar_of_ne _ _ (by decide), hvisible]
    · rw [FactionState.has_setAtWar_of_ne _ _ (by decide), hinactive]
    · rw [FactionState.has_setAtWar_atWar, htuned.isPeaceful, hwar]
      show (if true && f.isPeaceful then _ else _) = true ↔ _
      cases f.isPeaceful <;> simp [hrank]
  next hrank => exact ⟨htuned, hvisible, hinactive, by rw [hwar]; simp [hrank]⟩

end Sunstrider.Reputation

/-!
## The counters of factions

Each counter of `ReputationMgr` caches a number of states: those that are visible, and those whose
reputation has at least some rank (`Counted`). An operation that writes one state and moves the
counters by what it was and what it becomes keeps them (`Counted.change`). `Initialize` begins so for
every table whose factions have list ids of their own and are fewer than the 256 that an eight-bit
counter tells apart (`Env.Regular`), and `LoadFromDB` goes on from there.
-/

namespace Sunstrider.Reputation

open Sunstrider.Lib

/-! ## The table -/

variable {e : FactionEntry}

theorem lookupEntry_eq_some {s : FactionStore} {id : ℕ} :
    s.lookupEntry id = some e ↔ e ∈ s.entries ∧ e.id = id := by
  constructor
  · intro h
    exact ⟨List.mem_of_find?_eq_some h, by simpa using List.find?_some h⟩
  · rintro ⟨hmem, rfl⟩
    cases hfind : s.lookupEntry e.id with
    | none =>
      have hnone := List.find?_eq_none.mp hfind e hmem
      simp at hnone
    | some e' =>
      have hmem' := List.mem_of_find?_eq_some hfind
      have hid : e'.id = e.id := by simpa using List.find?_some hfind
      have hnodup : (s.entries.map FactionEntry.id).Nodup :=
        List.pairwise_map.mpr (s.sorted.imp Nat.ne_of_lt)
      exact congrArg some (eq_of_key hnodup hmem' hmem hid)

variable {f f' : FactionState}

namespace Env

/-- The base reputation of a state's faction. -/
def baseOf (env : Env) (f : FactionState) : ℤ :=
  match env.store.lookupEntry f.id with
  | some e => env.getBaseReputation e
  | none => 0

/-- The reputation with a state's faction. -/
def reputationOf (env : Env) (f : FactionState) : ℤ := env.baseOf f + f.standing

def rankOf (env : Env) (f : FactionState) : ReputationRank := reputationToRank (env.reputationOf f)

/-- The faction table lists each faction under an id of its own. -/
def ListsOnce (env : Env) : Prop :=
  ∀ e ∈ env.store.entries, ∀ e' ∈ env.store.entries, e.canHaveReputation = true →
    e.reputationListID = e'.reputationListID → e = e'

/-- The faction table lists each faction under an id of its own, lists fewer than 256, and makes no
faction inactive that is not visible. -/
structure Regular (env : Env) : Prop where
  lists : env.ListsOnce
  few : (env.store.entries.filter FactionEntry.canHaveReputation).length < 2 ^ 8
  visible : ∀ e ∈ env.store.entries, e.canHaveReputation = true →
    has (env.getDefaultStateFlags e) .inactive = true →
    has (env.getDefaultStateFlags e) .visible = true

variable {env : Env}

theorem baseOf_eq (he : e ∈ env.store.entries) (hid : e.id = f.id) :
    env.baseOf f = env.getBaseReputation e := by
  rw [baseOf, lookupEntry_eq_some.mpr ⟨he, hid⟩]

theorem rankOf_congr (hid : f'.id = f.id) (hs : f'.standing = f.standing) :
    env.rankOf f' = env.rankOf f := by
  rw [rankOf, rankOf, reputationOf, reputationOf, baseOf, baseOf, hid, hs]

end Env

/-! ## The states -/

/-- The states are those of listed factions, under their list ids. -/
structure Known (env : Env) (st : ReputationMgr) : Prop where
  key : ∀ k f, st.factions.lookup k = some f → f.reputationListID = k
  entry : ∀ k f, st.factions.lookup k = some f →
    ∃ e ∈ env.store.entries, e.id = f.id ∧ e.reputationListID = k

variable {env : Env} {st : ReputationMgr}

@[simp] theorem lookup_put (st : ReputationMgr) (f : FactionState) (k : ℕ) :
    (st.put f).factions.lookup k =
      if k = f.reputationListID then some f else st.factions.lookup k :=
  lookup_insert_ite st.factions f.reputationListID k f

theorem countValues_put (p : FactionState → Bool)
    (hf : st.factions.lookup f'.reputationListID = some f) :
    countValues p (st.put f').factions + (if p f then 1 else 0) =
      countValues p st.factions + if p f' then 1 else 0 :=
  countValues_insert p hf f'

theorem find_eq_some {n : ℤ} :
    st.find n = some f ↔ 0 ≤ n ∧ st.factions.lookup n.toNat = some f := by
  rw [ReputationMgr.find]
  split
  next hneg => exact ⟨fun h => (nomatch h), fun h => absurd h.1 (by omega)⟩
  next hpos => exact ⟨fun h => ⟨by omega, h⟩, fun h => h.2⟩

theorem Known.of_find (hk : Known env st) (hlists : env.ListsOnce) (he : e ∈ env.store.entries)
    (hf : st.find e.reputationListID = some f) :
    f.id = e.id ∧ st.factions.lookup f.reputationListID = some f := by
  obtain ⟨hpos, hf⟩ := find_eq_some.mp hf
  obtain ⟨e', he', hid, hlist⟩ := hk.entry _ f hf
  have heq : e = e' :=
    hlists e he e' he' (by simpa [FactionEntry.canHaveReputation] using hpos) (by omega)
  exact ⟨heq ▸ hid.symm, hk.key _ f hf ▸ hf⟩

theorem Known.find_of_id (hk : Known env st) (he : e ∈ env.store.entries) {k : ℕ}
    (hf : st.factions.lookup k = some f) (hid : f.id = e.id) :
    st.find e.reputationListID = some f := by
  obtain ⟨e', he', hid', hlist⟩ := hk.entry k f hf
  have heq := (lookupEntry_eq_some.mpr ⟨he', hid'.trans hid⟩).symm.trans
    (lookupEntry_eq_some.mpr ⟨he, rfl⟩)
  cases heq
  exact find_eq_some.mpr ⟨by omega, by rw [hlist]; exact hf⟩

theorem Known.eq_of_id (hk : Known env st) {k k' : ℕ} (hf : st.factions.lookup k = some f)
    (hf' : st.factions.lookup k' = some f') (hid : f.id = f'.id) : k = k' := by
  obtain ⟨e, he, hide, hlist⟩ := hk.entry k f hf
  obtain ⟨e', he', hide', hlist'⟩ := hk.entry k' f' hf'
  have heq := (lookupEntry_eq_some.mpr ⟨he, hide.trans hid⟩).symm.trans
    (lookupEntry_eq_some.mpr ⟨he', hide'⟩)
  cases heq
  omega

theorem Known.put (hk : Known env st) (hf : st.factions.lookup f'.reputationListID = some f)
    (hid : f'.id = f.id) : Known env (st.put f') where
  key k g hg := by
    rw [lookup_put] at hg
    split at hg
    · next hkey =>
      cases hg
      exact hkey.symm
    · exact hk.key k g hg
  entry k g hg := by
    rw [lookup_put] at hg
    split at hg
    · next hkey =>
      cases hg
      rw [hkey, hid]
      exact hk.entry _ f hf
    · exact hk.entry k g hg

/-- There are no more states than listed factions. -/
theorem Known.few (hk : Known env st) (hreg : env.Regular) :
    st.factions.entries.length < 2 ^ 8 := by
  have hsubset : st.factions.entries.keys ⊆
      (env.store.entries.filter FactionEntry.canHaveReputation).map
        fun e => e.reputationListID.toNat := by
    intro k hmem
    obtain ⟨f, hf⟩ := mem_keys_iff_lookup.mp hmem
    obtain ⟨e, he, -, hlist⟩ := hk.entry k f hf
    refine List.mem_map.mpr ⟨e, List.mem_filter.mpr ⟨he, ?_⟩, by omega⟩
    simp [FactionEntry.canHaveReputation, hlist]
  have hle := (List.subperm_of_subset st.factions.keys_nodup hsubset).length_le
  simp only [AList.keys, List.keys, List.length_map] at hle
  exact hle.trans_lt hreg.few

/-! ## Counters -/

/-- Each counter is the number of states that it is for. -/
structure Counted (env : Env) (st : ReputationMgr) : Prop where
  visible : st.visibleFactionCount = countValues (fun f => has f.flags .visible) st.factions
  honored : st.honoredFactionCount =
    countValues (fun f => ReputationRank.honored ≤ env.rankOf f) st.factions
  revered : st.reveredFactionCount =
    countValues (fun f => ReputationRank.revered ≤ env.rankOf f) st.factions
  exalted : st.exaltedFactionCount =
    countValues (fun f => ReputationRank.exalted ≤ env.rankOf f) st.factions

theorem updateCounter_eq {rank oldRank newRank : ReputationRank} {n n' : ℕ} (hn : n < 2 ^ 8)
    (hn' : n' < 2 ^ 8)
    (h : n' + (if rank ≤ oldRank then 1 else 0) = n + if rank ≤ newRank then 1 else 0) :
    updateCounter rank oldRank newRank n = n' := by
  simp only [updateCounter, incU8, decU8]
  split at h <;> split at h <;> simp only [*, if_true, if_false] <;> omega

theorem updateRankCounters_self {st : ReputationMgr} (honored : st.honoredFactionCount < 2 ^ 8)
    (revered : st.reveredFactionCount < 2 ^ 8) (exalted : st.exaltedFactionCount < 2 ^ 8)
    (r : ReputationRank) : st.updateRankCounters r r = st := by
  rw [ReputationMgr.updateRankCounters, updateCounter_eq honored honored rfl,
    updateCounter_eq revered revered rfl, updateCounter_eq exalted exalted rfl]

/-- **One state is written**, and the counters move by what it was and what it becomes. -/
theorem Counted.change (hreg : env.Regular) (hc : Counted env st) (hk : Known env st)
    {becomes : Bool} (hf : st.factions.lookup f'.reputationListID = some f) (hid : f'.id = f.id)
    (hvisible : has f'.flags .visible = (has f.flags .visible || becomes))
    (hnew : becomes = true → has f.flags .visible = false) :
    Counted env (((st.put f').countVisible becomes).updateRankCounters (env.rankOf f)
      (env.rankOf f')) := by
  have hk' := hk.put hf hid
  have hlt : ∀ p : FactionState → Bool, countValues p (st.put f').factions < 2 ^ 8 := fun p =>
    (countValues_le p _).trans_lt (hk'.few hreg)
  have hranked : ∀ (rank : ReputationRank) (n : ℕ),
      n = countValues (fun f => decide (rank ≤ env.rankOf f)) st.factions →
      updateCounter rank (env.rankOf f) (env.rankOf f') n =
        countValues (fun f => decide (rank ≤ env.rankOf f)) (st.put f').factions := by
    rintro rank n rfl
    refine updateCounter_eq ((countValues_le _ _).trans_lt (hk.few hreg)) (hlt _) ?_
    have hcount := countValues_put (fun f => decide (rank ≤ env.rankOf f)) hf
    simpa only [decide_eq_true_eq] using hcount
  refine ⟨?_, hranked _ _ hc.honored, hranked _ _ hc.revered, hranked _ _ hc.exalted⟩
  have hcount := countValues_put (fun f => has f.flags .visible) hf
  have hbound := hlt fun f => has f.flags .visible
  show (if becomes then incU8 st.visibleFactionCount else st.visibleFactionCount) =
    countValues (fun f => has f.flags .visible) (st.put f').factions
  rw [hc.visible, incU8]
  rw [hvisible] at hcount
  cases becomes with
  | false =>
    rw [Bool.or_false] at hcount
    rw [if_neg (by simp)]
    omega
  | true =>
    rw [hnew rfl, Bool.or_true, if_pos rfl, if_neg (by simp)] at hcount
    rw [if_pos rfl]
    omega

theorem Counted.changeFlags (hreg : env.Regular) (hc : Counted env st) (hk : Known env st)
    {becomes : Bool} (hf : st.factions.lookup f'.reputationListID = some f) (h : f.Alike f')
    (hvisible : has f'.flags .visible = (has f.flags .visible || becomes))
    (hnew : becomes = true → has f.flags .visible = false) :
    Counted env ((st.put f').countVisible becomes) := by
  have hlt : ∀ p : FactionState → Bool, countValues p st.factions < 2 ^ 8 := fun p =>
    (countValues_le p st.factions).trans_lt (hk.few hreg)
  have hchange := hc.change hreg hk hf h.id hvisible hnew
  rw [Env.rankOf_congr h.id h.standing] at hchange
  rwa [updateRankCounters_self] at hchange
  · exact hc.honored.trans_lt (hlt _)
  · exact hc.revered.trans_lt (hlt _)
  · exact hc.exalted.trans_lt (hlt _)

end Sunstrider.Reputation
