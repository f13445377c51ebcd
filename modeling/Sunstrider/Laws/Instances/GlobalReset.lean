import Sunstrider.Instances.InstanceSaveMgr
import Mathlib.Data.List.Perm.Basic

/-!
# What a global reset releases

The lists of a save and the binds of players and groups point at each other (`Linked`). While the lists
are locked, to unbind somebody takes him out of both and leaves the table alone, so the loop over the
table deletes a save that nobody is bound to permanently, and goes past every other.
-/

namespace Sunstrider.Instances

open Lib (Yields ok_bind)

/-- The saves of a map and a difficulty. -/
def OfMap (mapId difficulty : ℕ) (s : InstanceSave) : Prop :=
  s.mapId = mapId ∧ s.difficulty = difficulty

instance {mapId difficulty : ℕ} : DecidablePred (OfMap mapId difficulty) := fun s => by
  unfold OfMap
  infer_instance

/-! ## Lists and binds -/

/-- The saves list whoever is bound to them, and nobody else. -/
structure BackRefs (saves : ℕ → Option InstanceSave) (list : InstanceSave → List ℕ)
    (binds : ℕ → ℕ → ℕ → Option InstanceBind) : Prop where
  listed : ∀ {who d map bind}, binds who d map = some bind →
    ∃ s, saves bind.save = some s ∧ OfMap map d s ∧ who ∈ list s
  bound : ∀ {a s who}, saves a = some s → who ∈ list s →
    ∃ bind, binds who s.difficulty s.mapId = some bind ∧ bind.save = a

namespace BackRefs

variable {saves saves' : ℕ → Option InstanceSave} {list : InstanceSave → List ℕ}
  {binds : ℕ → ℕ → ℕ → Option InstanceBind} {a : ℕ} {s s' : InstanceSave}

variable {who : ℕ}

theorem unique (h : BackRefs saves list binds) {a' : ℕ} (hs : saves a = some s)
    (hmem : who ∈ list s) (hs' : saves a' = some s') (hmem' : who ∈ list s')
    (hof : OfMap s.mapId s.difficulty s') : a' = a := by
  obtain ⟨bind, hbind, rfl⟩ := h.bound hs hmem
  obtain ⟨bind', hbind', rfl⟩ := h.bound hs' hmem'
  rw [hof.1, hof.2, hbind] at hbind'
  cases hbind'
  rfl

theorem of_same (h : BackRefs saves list binds) (hs : saves a = some s)
    (hof : OfMap s.mapId s.difficulty s') (hlist : list s' = list s) :
    BackRefs (Function.update saves a (some s')) list binds where
  listed := by
    intro who d map bind hbind
    obtain ⟨s₀, hs₀, hof₀, hmem⟩ := h.listed hbind
    by_cases ha : bind.save = a
    · rw [ha, hs] at hs₀
      cases hs₀
      refine ⟨s', by rw [ha, Function.update_self], ⟨hof.1.trans hof₀.1, hof.2.trans hof₀.2⟩, ?_⟩
      rw [hlist]
      exact hmem
    · exact ⟨s₀, (Function.update_of_ne ha ..).trans hs₀, hof₀, hmem⟩
  bound := by
    intro a' s₀ who hs₀ hmem
    by_cases ha : a' = a
    · subst ha
      rw [Function.update_self] at hs₀
      cases hs₀
      rw [hlist] at hmem
      rw [hof.1, hof.2]
      exact h.bound hs hmem
    · rw [Function.update_of_ne ha] at hs₀
      exact h.bound hs₀ hmem

theorem setBind_eq {d map who' d' map' : ℕ} {bind : InstanceBind}
    (h : Manager.setBind binds who d map none who' d' map' = some bind) :
    binds who' d' map' = some bind ∧ ¬ (who' = who ∧ d' = d ∧ map' = map) := by
  unfold Manager.setBind at h
  split at h
  · cases h
  · next hne => exact ⟨h, hne⟩

theorem unbind (h : BackRefs saves list binds) (hs : saves a = some s) (hin : who ∈ list s)
    (hof : OfMap s.mapId s.difficulty s') (hlist : list s' = (list s).filter (· ≠ who)) :
    BackRefs (Function.update saves a (some s')) list
      (Manager.setBind binds who s.difficulty s.mapId none) where
  listed := by
    intro who' d map bind hbind
    obtain ⟨hbind', hne⟩ := setBind_eq hbind
    obtain ⟨s₀, hs₀, hof₀, hmem⟩ := h.listed hbind'
    by_cases ha : bind.save = a
    · rw [ha, hs] at hs₀
      cases hs₀
      refine ⟨s', by rw [ha, Function.update_self], ⟨hof.1.trans hof₀.1, hof.2.trans hof₀.2⟩, ?_⟩
      rw [hlist, List.mem_filter, decide_eq_true_eq]
      exact ⟨hmem, fun heq => hne ⟨heq, hof₀.2.symm, hof₀.1.symm⟩⟩
    · exact ⟨s₀, (Function.update_of_ne ha ..).trans hs₀, hof₀, hmem⟩
  bound := by
    intro a' s₀ who' hs₀ hmem
    by_cases ha : a' = a
    · subst ha
      rw [Function.update_self] at hs₀
      cases hs₀
      rw [hlist, List.mem_filter, decide_eq_true_eq] at hmem
      obtain ⟨bind, hbind, hsave⟩ := h.bound hs hmem.1
      refine ⟨bind, ?_, hsave⟩
      rw [hof.1, hof.2]
      exact (if_neg fun heq => hmem.2 heq.1).trans hbind
    · rw [Function.update_of_ne ha] at hs₀
      obtain ⟨bind, hbind, hsave⟩ := h.bound hs₀ hmem
      refine ⟨bind, (if_neg fun heq => ?_).trans hbind, hsave⟩
      obtain ⟨rfl, hd, hm⟩ := heq
      exact ha (h.unique hs hin hs₀ hmem ⟨hm, hd⟩)

theorem delete (h : BackRefs saves list binds) (hs : saves a = some s) (hnone : list s = []) :
    BackRefs (Function.update saves a none) list binds where
  listed := by
    intro who d map bind hbind
    obtain ⟨s₀, hs₀, hof₀, hmem⟩ := h.listed hbind
    have ha : bind.save ≠ a := by
      intro ha
      rw [ha, hs] at hs₀
      cases hs₀
      rw [hnone] at hmem
      cases hmem
    exact ⟨s₀, (Function.update_of_ne ha ..).trans hs₀, hof₀, hmem⟩
  bound := by
    intro a' s₀ who hs₀ hmem
    by_cases ha : a' = a
    · rw [ha, Function.update_self] at hs₀
      cases hs₀
    · rw [Function.update_of_ne ha] at hs₀
      exact h.bound hs₀ hmem

end BackRefs

namespace Manager

variable {st : Stores} {m m' : Manager} {a mapId difficulty : ℕ} {s : InstanceSave}

/-- The table holds the saves, and a save lists who is bound to it. Each reset delay has a reset time,
as `LoadResetTimes` leaves it. -/
structure Linked (st : Stores) (m : Manager) : Prop where
  keys : (m.instanceSaveById.map Prod.fst).Nodup
  loaded : ∀ {id a}, (id, a) ∈ m.instanceSaveById →
    ∃ s, m.saves a = some s ∧ s.instanceId = id ∧ s.toDelete = false
  registered : ∀ {a s}, m.saves a = some s → (s.instanceId, a) ∈ m.instanceSaveById
  players : BackRefs m.saves InstanceSave.playerList m.playerBinds
  groups : BackRefs m.saves InstanceSave.groupList m.groupBinds
  timed : ∀ {map d delay}, st.mapDifficulty map d = some delay → delay ≠ 0 →
    (m.resetTimeByMapDifficulty map d).isSome

/-! ## Unbinding -/

theorem Linked.live (h : Linked st m) (hs : m.saves a = some s) : s.toDelete = false := by
  obtain ⟨s', hs', -, hlive⟩ := h.loaded (h.registered hs)
  rw [hs] at hs'
  cases hs'
  exact hlive

theorem unloadRemoved_locked (st : Stores) {m : Manager} (hlock : m.lockInstLists = true)
    (hs : m.saves a = some s) (hlive : s.toDelete = false) : m.unloadRemoved st a = .ok m := by
  have hunload : m.unloadIfEmpty st a = .ok m := by
    unfold unloadIfEmpty derefSave
    rw [hs]
    show (if _ then _ else _) = _
    simp [hlock]
  unfold unloadRemoved
  rw [hunload]
  show (m.derefSave a >>= _) = _
  unfold derefSave
  rw [hs]
  show (if s.toDelete then _ else _) = _
  rw [hlive, if_neg (by decide)]

theorem editSave_eq (hs : m.saves a = some s) (f : InstanceSave → InstanceSave) :
    m.editSave a f = { m with saves := Function.update m.saves a (some (f s)) } := by
  rw [editSave, hs, Option.map_some]

/-- A player who is unbound from a save. -/
def withoutPlayer (m : Manager) (a : ℕ) (s : InstanceSave) (player : ℕ) : Manager :=
  { m with
    saves := Function.update m.saves a
      (some { s with playerList := s.playerList.filter (· ≠ player) })
    playerBinds := setBind m.playerBinds player s.difficulty s.mapId none }

/-- A group that is unbound from a save. -/
def withoutGroup (m : Manager) (a : ℕ) (s : InstanceSave) (group : ℕ) : Manager :=
  { m with
    saves := Function.update m.saves a
      (some { s with groupList := s.groupList.filter (· ≠ group) })
    groupBinds := setBind m.groupBinds group s.difficulty s.mapId none }

variable {player : ℕ}

theorem unbindPlayer_locked (h : Linked st m) (hlock : m.lockInstLists = true)
    (hs : m.saves a = some s) (hmem : player ∈ s.playerList) :
    m.unbindPlayer st player s.mapId s.difficulty = .ok (m.withoutPlayer a s player) := by
  obtain ⟨bind, hbind, rfl⟩ := h.players.bound hs hmem
  have hlive := h.live hs
  have hunload := fun s' (hlive' : s'.toDelete = false) =>
    unloadRemoved_locked st (m := { m with saves := Function.update m.saves bind.save (some s') }) hlock
      (Function.update_self ..) hlive'
  unfold unbindPlayer removePlayer derefSave
  rw [hbind]
  simp only [hs]
  rw [editSave_eq hs]
  show (Manager.unloadRemoved st { m with saves := _ } _ >>= _) = _
  rw [hunload { s with playerList := s.playerList.filter (· ≠ player) } hlive]
  rfl

variable {group : ℕ}

theorem unbindGroup_locked (h : Linked st m) (hlock : m.lockInstLists = true)
    (hs : m.saves a = some s) (hmem : group ∈ s.groupList) :
    m.unbindGroup st group s.mapId s.difficulty = .ok (m.withoutGroup a s group) := by
  obtain ⟨bind, hbind, rfl⟩ := h.groups.bound hs hmem
  have hlive := h.live hs
  have hunload := fun s' (hlive' : s'.toDelete = false) =>
    unloadRemoved_locked st (m := { m with saves := Function.update m.saves bind.save (some s') }) hlock
      (Function.update_self ..) hlive'
  unfold unbindGroup removeGroup derefSave
  rw [hbind]
  simp only [hs]
  rw [editSave_eq hs]
  show (Manager.unloadRemoved st { m with saves := _ } _ >>= _) = _
  rw [hunload { s with groupList := s.groupList.filter (· ≠ group) } hlive]
  rfl

theorem Linked.relist (h : Linked st m) (hs : m.saves a = some s) (s' : InstanceSave)
    (hid : s'.instanceId = s.instanceId) (hlive : s'.toDelete = s.toDelete)
    {playerBinds groupBinds : ℕ → ℕ → ℕ → Option InstanceBind}
    (hplayers : BackRefs (Function.update m.saves a (some s')) InstanceSave.playerList playerBinds)
    (hgroups : BackRefs (Function.update m.saves a (some s')) InstanceSave.groupList groupBinds) :
    Linked st
      { m with
        saves := Function.update m.saves a (some s')
        playerBinds := playerBinds
        groupBinds := groupBinds } where
  keys := h.keys
  loaded := by
    intro id a' hmem
    obtain ⟨s₀, hs₀, hid₀, hlive₀⟩ := h.loaded hmem
    by_cases ha : a' = a
    · subst ha
      rw [hs] at hs₀
      cases hs₀
      exact ⟨s', Function.update_self .., hid.trans hid₀, hlive.trans hlive₀⟩
    · exact ⟨s₀, (Function.update_of_ne ha ..).trans hs₀, hid₀, hlive₀⟩
  registered := by
    intro a' s₀ hs₀
    by_cases ha : a' = a
    · subst ha
      replace hs₀ : Function.update m.saves a' (some s') a' = some s₀ := hs₀
      rw [Function.update_self] at hs₀
      cases hs₀
      rw [hid]
      exact h.registered hs
    · exact h.registered ((Function.update_of_ne ha ..).symm.trans hs₀)
  players := hplayers
  groups := hgroups
  timed := h.timed

theorem Linked.withoutPlayer (h : Linked st m) (hs : m.saves a = some s)
    (hin : player ∈ s.playerList) : Linked st (m.withoutPlayer a s player) :=
  h.relist hs { s with playerList := s.playerList.filter (· ≠ player) } rfl rfl
    (h.players.unbind hs hin ⟨rfl, rfl⟩ rfl) (h.groups.of_same hs ⟨rfl, rfl⟩ rfl)

theorem Linked.withoutGroup (h : Linked st m) (hs : m.saves a = some s)
    (hin : group ∈ s.groupList) :
    Linked st (m.withoutGroup a s group) :=
  h.relist hs { s with groupList := s.groupList.filter (· ≠ group) } rfl rfl
    (h.players.of_same hs ⟨rfl, rfl⟩ rfl) (h.groups.unbind hs hin ⟨rfl, rfl⟩ rfl)

/-! ## What is left alone -/

theorem ofMap_of_update {saves : ℕ → Option InstanceSave} {a' : ℕ} {s₀ s₁ : InstanceSave}
    (hs : saves a = some s) (s' : InstanceSave) (hof : OfMap s.mapId s.difficulty s') (hs₀ : saves a' = some s₀)
    (hs₁ : Function.update saves a (some s') a' = some s₁) : OfMap s₀.mapId s₀.difficulty s₁ := by
  by_cases ha : a' = a
  · subst ha
    rw [Function.update_self] at hs₁
    cases hs₁
    rw [hs] at hs₀
    cases hs₀
    exact hof
  · rw [Function.update_of_ne ha, hs₀] at hs₁
    cases hs₁
    exact ⟨rfl, rfl⟩

/-- What a reset of a map leaves alone: the saves and binds of other maps and difficulties, and the
permanent binds of players. Whoever was not bound is not bound. -/
structure Leaves (mapId difficulty : ℕ) (m m' : Manager) : Prop where
  saves : ∀ a, (∃ s, m.saves a = some s ∧ OfMap mapId difficulty s) ∨ m'.saves a = m.saves a
  same : ∀ {a s s'}, m.saves a = some s → m'.saves a = some s' → OfMap s.mapId s.difficulty s'
  players : ∀ player d map, ¬ (d = difficulty ∧ map = mapId) →
    m'.playerBinds player d map = m.playerBinds player d map
  groups : ∀ group d map, ¬ (d = difficulty ∧ map = mapId) →
    m'.groupBinds group d map = m.groupBinds group d map
  unbinds : ∀ player, m'.playerBinds player difficulty mapId = none ∨
    m'.playerBinds player difficulty mapId = m.playerBinds player difficulty mapId
  permanent : ∀ {player bind}, m.playerBinds player difficulty mapId = some bind → bind.perm →
    m'.playerBinds player difficulty mapId = some bind
  times : m'.resetTimeByMapDifficulty = m.resetTimeByMapDifficulty

namespace Leaves

theorem refl (mapId difficulty : ℕ) (m : Manager) : Leaves mapId difficulty m m where
  saves _ := .inr rfl
  same hs hs' := by
    rw [hs] at hs'
    cases hs'
    exact ⟨rfl, rfl⟩
  players _ _ _ _ := rfl
  groups _ _ _ _ := rfl
  unbinds _ := .inr rfl
  permanent h _ := h
  times := rfl

theorem trans {m₁ m₂ m₃ : Manager} (h : Leaves mapId difficulty m₁ m₂)
    (h' : Leaves mapId difficulty m₂ m₃) : Leaves mapId difficulty m₁ m₃ where
  saves := by
    intro a
    rcases h.saves a with hof | hsame
    · exact .inl hof
    · rw [← hsame]
      exact h'.saves a
  same := by
    intro a s₁ s₃ hs₁ hs₃
    cases hs₂ : m₂.saves a with
    | none =>
      rcases h'.saves a with ⟨s, hs, -⟩ | hsame
      · rw [hs₂] at hs
        cases hs
      · rw [hsame, hs₂] at hs₃
        cases hs₃
    | some s₂ =>
      obtain ⟨hmap, hdiff⟩ := h.same hs₁ hs₂
      obtain ⟨hmap', hdiff'⟩ := h'.same hs₂ hs₃
      exact ⟨hmap'.trans hmap, hdiff'.trans hdiff⟩
  players _ _ _ hne := (h'.players _ _ _ hne).trans (h.players _ _ _ hne)
  groups _ _ _ hne := (h'.groups _ _ _ hne).trans (h.groups _ _ _ hne)
  unbinds := by
    intro player
    rcases h'.unbinds player with hnone | hsame
    · exact .inl hnone
    · rw [hsame]
      exact h.unbinds player
  permanent hbind hperm := h'.permanent (h.permanent hbind hperm) hperm
  times := h'.times.trans h.times

theorem temporary (h : Leaves mapId difficulty m m')
    (htemp : ∀ player bind, m.playerBinds player difficulty mapId = some bind → bind.perm = false) :
    ∀ player bind, m'.playerBinds player difficulty mapId = some bind → bind.perm = false := by
  intro player bind hbind
  rcases h.unbinds player with hnone | hsame
  · rw [hnone] at hbind
    cases hbind
  · exact htemp player bind (hsame ▸ hbind)

theorem withoutPlayer (hs : m.saves a = some s) (player : ℕ)
    (htemp : ∀ bind, m.playerBinds player s.difficulty s.mapId = some bind → bind.perm = false) :
    Leaves s.mapId s.difficulty m (m.withoutPlayer a s player) where
  saves := by
    intro a'
    by_cases ha : a' = a
    · exact .inl ⟨s, ha ▸ hs, rfl, rfl⟩
    · exact .inr (Function.update_of_ne ha ..)
  same := ofMap_of_update hs { s with playerList := s.playerList.filter (· ≠ player) } ⟨rfl, rfl⟩
  players _ _ _ hne := if_neg fun heq => hne heq.2
  groups _ _ _ _ := rfl
  unbinds := by
    intro player'
    by_cases hp : player' = player
    · exact .inl (if_pos ⟨hp, rfl, rfl⟩)
    · exact .inr (if_neg fun heq => hp heq.1)
  permanent := by
    intro player' bind hbind hperm
    refine (if_neg fun heq => ?_).trans hbind
    rw [heq.1] at hbind
    rw [htemp bind hbind] at hperm
    cases hperm
  times := rfl

theorem withoutGroup (hs : m.saves a = some s) (group : ℕ) :
    Leaves s.mapId s.difficulty m (m.withoutGroup a s group) where
  saves := by
    intro a'
    by_cases ha : a' = a
    · exact .inl ⟨s, ha ▸ hs, rfl, rfl⟩
    · exact .inr (Function.update_of_ne ha ..)
  same := ofMap_of_update hs { s with groupList := s.groupList.filter (· ≠ group) } ⟨rfl, rfl⟩
  players _ _ _ _ := rfl
  groups _ _ _ hne := if_neg fun heq => hne heq.2
  unbinds _ := .inr rfl
  permanent h _ := h
  times := rfl

end Leaves

/-! ## One save -/

/-- The state of a reset that has got to one save: the lists are locked, and everything else is linked,
and left alone so far. -/
structure Resets (st : Stores) (m m' : Manager) (a : ℕ) (s s' : InstanceSave) : Prop where
  linked : Linked st m'
  locked : m'.lockInstLists = true
  table : m'.instanceSaveById = m.instanceSaveById
  leaves : Leaves s.mapId s.difficulty m m'
  save : m'.saves a = some s'
  ofMap : OfMap s.mapId s.difficulty s'

variable {s' : InstanceSave}

theorem Resets.unbindPlayer (h : Resets st m m' a s s') (hm : Linked st m) (hs : m.saves a = some s)
    (hin : player ∈ s.playerList)
    (htemp : ∀ bind, m.playerBinds player s.difficulty s.mapId = some bind → bind.perm = false) :
    Yields (m'.unbindPlayer st player s.mapId s.difficulty) fun m'' =>
      Resets st m m'' a s { s' with playerList := s'.playerList.filter (· ≠ player) } := by
  obtain ⟨hmap, hdiff⟩ := h.ofMap
  by_cases hmem : player ∈ s'.playerList
  · have heq := unbindPlayer_locked h.linked h.locked h.save hmem
    rw [hmap, hdiff] at heq
    rw [heq]
    refine .ok
      { linked := h.linked.withoutPlayer h.save hmem
        locked := h.locked
        table := h.table
        leaves := h.leaves.trans ?_
        save := Function.update_self ..
        ofMap := h.ofMap }
    have hleaves := Leaves.withoutPlayer h.save player
    rw [hmap, hdiff] at hleaves
    refine hleaves fun bind hbind => ?_
    rcases h.leaves.unbinds player with hnone | hsame
    · rw [hnone] at hbind
      cases hbind
    · exact htemp bind (hsame ▸ hbind)
  · -- he was unbound before, where the list has him twice
    have hnone : m'.playerBinds player s.difficulty s.mapId = none := by
      rcases h.leaves.unbinds player with hnone | hsame
      · exact hnone
      · obtain ⟨bind, hbind, rfl⟩ := hm.players.bound hs hin
        obtain ⟨s₀, hs₀, -, hlisted⟩ := h.linked.players.listed (hsame.trans hbind)
        rw [h.save] at hs₀
        cases hs₀
        exact absurd hlisted hmem
    have hfilter : s'.playerList.filter (· ≠ player) = s'.playerList := by
      refine List.filter_eq_self.mpr fun player' hmem' => decide_eq_true ?_
      rintro rfl
      exact hmem hmem'
    unfold Manager.unbindPlayer
    rw [hnone, hfilter]
    exact .ok h

theorem Resets.unbindPlayers {temp : List ℕ} (h : Resets st m m' a s s') (hm : Linked st m)
    (hs : m.saves a = some s) (htemp : ∀ player ∈ temp, player ∈ s.playerList ∧
      ∀ bind, m.playerBinds player s.difficulty s.mapId = some bind → bind.perm = false) :
    Yields (temp.foldlM (fun m player => m.unbindPlayer st player s.mapId s.difficulty) m')
      fun m'' => ∃ players, Resets st m m'' a s { s' with playerList := players } ∧
        ∀ player ∈ players, player ∈ s'.playerList ∧ player ∉ temp := by
  induction temp generalizing m' s' with
  | nil => exact .ok ⟨s'.playerList, h, fun _ hmem => ⟨hmem, List.not_mem_nil⟩⟩
  | cons player temp ih =>
    obtain ⟨hin, hbind⟩ := htemp player List.mem_cons_self
    refine (h.unbindPlayer hm hs hin hbind).bind fun m₁ h₁ => ?_
    refine (ih h₁ fun player' hmem => htemp player' (List.mem_cons_of_mem _ hmem)).mono ?_
    rintro m'' ⟨players, h'', hplayers⟩
    refine ⟨players, h'', fun player' hmem => ?_⟩
    obtain ⟨hmem', hnot⟩ := hplayers player' hmem
    obtain ⟨hold, hne⟩ := List.mem_filter.mp hmem'
    refine ⟨hold, fun heq => ?_⟩
    rcases List.mem_cons.mp heq with rfl | hmem''
    · simp at hne
    · exact hnot hmem''

theorem Resets.unbindGroup (h : Resets st m m' a s s') (hmem : group ∈ s'.groupList) :
    Yields (m'.unbindGroup st group s.mapId s.difficulty) fun m'' =>
      Resets st m m'' a s { s' with groupList := s'.groupList.filter (· ≠ group) } := by
  obtain ⟨hmap, hdiff⟩ := h.ofMap
  have heq := unbindGroup_locked h.linked h.locked h.save hmem
  have hleaves := Leaves.withoutGroup h.save group
  rw [hmap, hdiff] at heq hleaves
  rw [heq]
  exact .ok
    { linked := h.linked.withoutGroup h.save hmem
      locked := h.locked
      table := h.table
      leaves := h.leaves.trans hleaves
      save := Function.update_self ..
      ofMap := h.ofMap }

theorem Resets.unbindGroups {fuel : ℕ} (h : Resets st m m' a s s')
    (hfuel : s'.groupList.length ≤ fuel) :
    Yields (Manager.unbindGroups st a s.mapId s.difficulty fuel m') fun m'' =>
      Resets st m m'' a s { s' with groupList := [] } := by
  induction fuel generalizing m' s' with
  | zero =>
    have hnil : s'.groupList = [] := List.length_eq_zero_iff.mp (Nat.le_zero.mp hfuel)
    have hsame : { s' with groupList := [] } = s' := by rw [← hnil]
    unfold Manager.unbindGroups derefSave
    simp only [h.save]
    rw [ok_bind, hnil, hsame]
    exact .ok h
  | succ fuel ih =>
    unfold Manager.unbindGroups derefSave
    simp only [h.save]
    rw [ok_bind]
    cases hgroups : s'.groupList with
    | nil =>
      have hsame : { s' with groupList := [] } = s' := by rw [← hgroups]
      simp only [hsame]
      exact .ok h
    | cons group groups =>
      have hmem : group ∈ s'.groupList := hgroups ▸ List.mem_cons_self
      refine (h.unbindGroup hmem).bind fun m₁ h₁ => ?_
      have hshort : (s'.groupList.filter (· ≠ group)).length ≤ fuel := by
        have hle := List.length_filter_le (fun group' => decide (group' ≠ group)) groups
        rw [hgroups, List.length_cons] at hfuel
        rw [hgroups, List.filter_cons_of_neg (by simp)]
        omega
      have hrest := ih h₁ hshort
      exact hrest

/-- The first loop: it finds the binds that are not permanent, and every bind in the list goes to the
save itself. -/
theorem expiredBinds_spec (h : Linked st m) (hs : m.saves a = some s)
    (hdiff : (st.mapDifficulty s.mapId s.difficulty).isSome) {players : List ℕ}
    (hin : ∀ player ∈ players, player ∈ s.playerList) :
    Yields (m.expiredBinds st a s.mapId s.difficulty players) fun e =>
      (∀ player ∈ e.1, player ∈ s.playerList ∧
        ∀ bind, m.playerBinds player s.difficulty s.mapId = some bind → bind.perm = false) ∧
      (e.2 = true ↔ ∀ player ∈ players, ∀ bind,
        m.playerBinds player s.difficulty s.mapId = some bind → bind.perm = false) ∧
      (e.2 = true → e.1 = players) := by
  induction players with
  | nil => exact .ok ⟨nofun, ⟨nofun, fun _ => rfl⟩, fun _ => rfl⟩
  | cons player players ih =>
    have hplayer := hin player List.mem_cons_self
    obtain ⟨bind, hbind, rfl⟩ := h.players.bound hs hplayer
    have hbound : m.boundInstance st player s.mapId s.difficulty = some bind := by
      unfold boundInstance Stores.downscaledDifficulty
      rw [if_pos hdiff]
      exact hbind
    unfold expiredBinds
    rw [hbound]
    show Yields (if bind.save ≠ bind.save then _ else _) _
    rw [if_neg (by simp)]
    refine (ih fun player' hmem => hin player' (List.mem_cons_of_mem _ hmem)).bind fun e he => ?_
    obtain ⟨htemp, hall, heq⟩ := he
    refine .ok ?_
    cases hperm : bind.perm with
    | true =>
      refine ⟨htemp, ⟨nofun, fun hnone => ?_⟩, nofun⟩
      rw [hnone player List.mem_cons_self bind hbind] at hperm
      cases hperm
    | false =>
      have hmine : ∀ bind', m.playerBinds player s.difficulty s.mapId = some bind' →
          bind'.perm = false := by
        intro bind' hbind'
        rw [hbind] at hbind'
        cases hbind'
        exact hperm
      refine ⟨fun player' hmem => ?_, ⟨fun hdel player' hmem => ?_, fun hnone => ?_⟩, fun hdel => ?_⟩
      · rcases List.mem_cons.mp hmem with rfl | hmem
        · exact ⟨hplayer, hmine⟩
        · exact htemp player' hmem
      · rcases List.mem_cons.mp hmem with rfl | hmem
        · exact hmine
        · exact hall.mp hdel player' hmem
      · exact hall.mpr fun player' hmem => hnone player' (List.mem_cons_of_mem _ hmem)
      · exact congrArg (player :: ·) (heq hdel)

variable {itr : ℕ}

theorem Linked.delete (h : Linked st m) {id : ℕ} (hitr : m.instanceSaveById[itr]? = some (id, a))
    (hs : m.saves a = some s) (hplayers : s.playerList = []) (hgroups : s.groupList = []) :
    Linked st
      { m with
        saves := Function.update m.saves a none
        instanceSaveById := m.instanceSaveById.eraseIdx itr } := by
  have hsplit : m.instanceSaveById.Perm ((id, a) :: m.instanceSaveById.eraseIdx itr) := by
    obtain ⟨hlt, heq⟩ := List.getElem?_eq_some_iff.mp hitr
    rw [← heq]
    exact (List.getElem_cons_eraseIdx_perm hlt).symm
  have hkeys : ((id, a) :: m.instanceSaveById.eraseIdx itr).map Prod.fst |>.Nodup :=
    (hsplit.map Prod.fst).nodup_iff.mp h.keys
  obtain ⟨s', hs', hid, -⟩ := h.loaded (List.mem_of_getElem? hitr)
  obtain rfl : s = s' := Option.some.inj (hs.symm.trans hs')
  -- the address is in no other entry, whose key would be the same
  have hgone : ∀ {id' a'}, (id', a') ∈ m.instanceSaveById.eraseIdx itr → a' ≠ a := by
    rintro id' a' hmem rfl
    obtain ⟨s'', hs'', hid', -⟩ := h.loaded (List.mem_of_mem_eraseIdx hmem)
    obtain rfl : s = s'' := Option.some.inj (hs.symm.trans hs'')
    refine (List.nodup_cons.mp hkeys).1 ?_
    rw [← hid, hid']
    exact List.mem_map_of_mem hmem
  exact
    { keys := (List.nodup_cons.mp hkeys).2
      loaded := fun hmem => by
        obtain ⟨s'', hs'', hrest⟩ := h.loaded (List.mem_of_mem_eraseIdx hmem)
        exact ⟨s'', (Function.update_of_ne (hgone hmem) ..).trans hs'', hrest⟩
      registered := fun {a' s''} hs'' => by
        replace hs'' : Function.update m.saves a none a' = some s'' := hs''
        by_cases ha : a' = a
        · rw [ha, Function.update_self] at hs''
          cases hs''
        · rw [Function.update_of_ne ha] at hs''
          rcases List.mem_cons.mp (hsplit.mem_iff.mp (h.registered hs'')) with heq | hmem
          · exact absurd (congrArg Prod.snd heq) ha
          · exact hmem
      players := h.players.delete hs hplayers
      groups := h.groups.delete hs hgroups
      timed := h.timed }

/-- `_ResetSave`: the save is deleted just if nobody is bound to it permanently, and the iterator goes
on over it otherwise. -/
theorem resetSave_spec (h : Linked st m) {id : ℕ} (hitr : m.instanceSaveById[itr]? = some (id, a))
    (hs : m.saves a = some s) (hdiff : (st.mapDifficulty s.mapId s.difficulty).isSome) :
    Yields (m.resetSave st itr) fun e =>
      Linked st e.1 ∧ Leaves s.mapId s.difficulty m e.1 ∧
        ((∀ player ∈ s.playerList, ∀ bind,
            m.playerBinds player s.difficulty s.mapId = some bind → bind.perm = false) ∧
          e.1.instanceSaveById = m.instanceSaveById.eraseIdx itr ∧ e.2 = itr ∨
        ¬ (∀ player ∈ s.playerList, ∀ bind,
            m.playerBinds player s.difficulty s.mapId = some bind → bind.perm = false) ∧
          e.1.instanceSaveById = m.instanceSaveById ∧ e.2 = itr + 1) := by
  have hlocked : Linked st { m with lockInstLists := true } :=
    ⟨h.keys, h.loaded, h.registered, h.players, h.groups, h.timed⟩
  have hstart : Resets st { m with lockInstLists := true } { m with lockInstLists := true } a s s :=
    { linked := hlocked
      locked := rfl
      table := rfl
      leaves := .refl ..
      save := hs
      ofMap := ⟨rfl, rfl⟩ }
  unfold resetSave
  rw [hitr]
  simp only [derefSave, hs]
  show Yields (expiredBinds st { m with lockInstLists := true } a s.mapId s.difficulty s.playerList >>= _) _
  refine (expiredBinds_spec hlocked hs hdiff fun _ hmem => hmem).bind fun e he => ?_
  obtain ⟨htemp, hall, heq⟩ := he
  refine (hstart.unbindPlayers hlocked hs htemp).bind fun m₁ h₁ => ?_
  obtain ⟨players, h₁, hplayers⟩ := h₁
  refine (h₁.unbindGroups (Nat.le_refl _)).bind fun m₂ h₂ => ?_
  have hsave := h₂.save
  cases hdel : e.2 with
  | false =>
    have hperm := fun htemp => Bool.false_ne_true (hdel.symm.trans (hall.mpr htemp))
    refine .ok ⟨?_, ?_, .inr ⟨hperm, h₂.table, rfl⟩⟩
    · exact ⟨h₂.linked.keys, h₂.linked.loaded, h₂.linked.registered, h₂.linked.players,
        h₂.linked.groups, h₂.linked.timed⟩
    · exact ⟨h₂.leaves.saves, h₂.leaves.same, h₂.leaves.players, h₂.leaves.groups, h₂.leaves.unbinds,
        h₂.leaves.permanent, h₂.leaves.times⟩
  | true =>
    have hempty : players = [] := by
      refine List.eq_nil_iff_forall_not_mem.mpr fun player hmem => ?_
      obtain ⟨hin, hnot⟩ := hplayers player hmem
      rw [heq hdel] at hnot
      exact hnot hin
    subst hempty
    have hdelete : m₂.deleteSave a = .ok { m₂ with saves := Function.update m₂.saves a none } := by
      unfold deleteSave derefSave
      simp only [hsave]
      rfl
    have hlinked := h₂.linked.delete (h₂.table ▸ hitr) hsave rfl rfl
    have hleaves : Leaves s.mapId s.difficulty m₂ { m₂ with saves := Function.update m₂.saves a none } :=
      { Leaves.refl s.mapId s.difficulty m₂ with
        saves := fun a' => by
          by_cases ha : a' = a
          · exact .inl ⟨_, by rw [ha]; exact hsave, h₂.ofMap⟩
          · exact .inr (Function.update_of_ne ha ..)
        same := fun {a' s₁ s₂} hs₁ hs₂ => by
          replace hs₂ : Function.update m₂.saves a none a' = some s₂ := hs₂
          by_cases ha : a' = a
          · rw [ha, Function.update_self] at hs₂
            cases hs₂
          · rw [Function.update_of_ne ha, hs₁] at hs₂
            cases hs₂
            exact ⟨rfl, rfl⟩ }
    have hall' := h₂.leaves.trans hleaves
    show Yields (m₂.deleteSave a >>= _) _
    rw [hdelete]
    refine .ok ⟨?_, ?_, .inl ⟨hall.mp hdel, congrArg (·.eraseIdx itr) h₂.table, rfl⟩⟩
    · exact ⟨hlinked.keys, hlinked.loaded, hlinked.registered, hlinked.players, hlinked.groups,
        hlinked.timed⟩
    · exact ⟨hall'.saves, hall'.same, hall'.players, hall'.groups, hall'.unbinds, hall'.permanent,
        hall'.times⟩

/-! ## The whole table -/

/-- The save of an entry of the table is one of the map. -/
def entryOfMap (m : Manager) (mapId difficulty : ℕ) (e : ℕ × ℕ) : Bool :=
  (m.saves e.2).any fun s => OfMap mapId difficulty s

theorem entryOfMap_eq {e : ℕ × ℕ} (hs : m.saves e.2 = some s) :
    m.entryOfMap mapId difficulty e = decide (OfMap mapId difficulty s) := by
  rw [entryOfMap, hs, Option.any_some]

/-- Nobody is bound to a map permanently. -/
def Temporary (m : Manager) (mapId difficulty : ℕ) : Prop :=
  ∀ player bind, m.playerBinds player difficulty mapId = some bind → bind.perm = false

theorem Leaves.entryOfMap (hleaves : Leaves mapId difficulty m m') (h : Linked st m)
    (h' : Linked st m') {e : ℕ × ℕ} (he : e ∈ m.instanceSaveById) (he' : e ∈ m'.instanceSaveById) :
    m'.entryOfMap mapId difficulty e = m.entryOfMap mapId difficulty e := by
  obtain ⟨s, hs, -⟩ := h.loaded he
  obtain ⟨s', hs', -⟩ := h'.loaded he'
  obtain ⟨hmap, hdiff⟩ := hleaves.same hs hs'
  rw [entryOfMap_eq hs, entryOfMap_eq hs']
  simp only [OfMap, hmap, hdiff]

/-- The loop, from the place that it has got to: it comes to the end of the table, and where nobody is
bound permanently it leaves the entries of other maps. -/
theorem resetAll_spec (hdiff : (st.mapDifficulty mapId difficulty).isSome) {fuel : ℕ}
    (h : Linked st m) (hfuel : m.instanceSaveById.length ≤ itr + fuel) :
    Yields (resetAll st mapId difficulty fuel m itr) fun m' =>
      Linked st m' ∧ Leaves mapId difficulty m m' ∧
        (Temporary m mapId difficulty → m'.instanceSaveById = m.instanceSaveById.take itr ++
          (m.instanceSaveById.drop itr).filter fun e => !m.entryOfMap mapId difficulty e) := by
  have hdone : ∀ {m : Manager} {itr : ℕ}, m.instanceSaveById.length ≤ itr →
      m.instanceSaveById = m.instanceSaveById.take itr ++
        (m.instanceSaveById.drop itr).filter fun e => !m.entryOfMap mapId difficulty e := by
    intro m itr hend
    rw [List.drop_eq_nil_of_le hend, List.take_of_length_le hend, List.filter_nil, List.append_nil]
  induction fuel generalizing m itr with
  | zero =>
    have hend : m.instanceSaveById.length ≤ itr := hfuel
    unfold resetAll
    rw [if_pos hend]
    exact .ok ⟨h, .refl .., fun _ => hdone hend⟩
  | succ fuel ih =>
    unfold resetAll
    cases hitr : m.instanceSaveById[itr]? with
    | none => exact .ok ⟨h, .refl .., fun _ => hdone (List.getElem?_eq_none_iff.mp hitr)⟩
    | some e =>
      obtain ⟨id, a⟩ := e
      obtain ⟨hlt, hget⟩ := List.getElem?_eq_some_iff.mp hitr
      obtain ⟨s, hs, -⟩ := h.loaded (List.mem_of_getElem? hitr)
      have hdrop : m.instanceSaveById.drop itr = (id, a) :: m.instanceSaveById.drop (itr + 1) := by
        rw [List.drop_eq_getElem_cons hlt, hget]
      simp only [derefSave, hs]
      show Yields (if s.mapId = mapId ∧ s.difficulty = difficulty then _ else _) _
      split
      next hof =>
        obtain ⟨rfl, rfl⟩ := hof
        refine (resetSave_spec h hitr hs hdiff).bind fun e he => ?_
        obtain ⟨h₁, hleaves, hcase⟩ := he
        have hlen : e.1.instanceSaveById.length ≤ e.2 + fuel := by
          rcases hcase with ⟨-, htable, he⟩ | ⟨-, htable, he⟩
          · rw [htable, he, List.length_eraseIdx_of_lt hlt]
            omega
          · rw [htable, he]
            omega
        refine (ih h₁ hlen).mono fun m' hm' => ?_
        obtain ⟨h', hleaves', htable'⟩ := hm'
        refine ⟨h', hleaves.trans hleaves', fun htemp => ?_⟩
        rcases hcase with ⟨-, htable, he⟩ | ⟨hperm, -⟩
        · have hof : m.entryOfMap s.mapId s.difficulty (id, a) = true := by
            rw [entryOfMap_eq hs]
            exact decide_eq_true ⟨rfl, rfl⟩
          have hlen : (m.instanceSaveById.take itr).length = itr :=
            List.length_take_of_le (Nat.le_of_lt hlt)
          rw [htable' (hleaves.temporary htemp), he, hdrop, List.filter_cons_of_neg (by rw [hof]; simp)]
          have hsplit : e.1.instanceSaveById =
              m.instanceSaveById.take itr ++ m.instanceSaveById.drop (itr + 1) := by
            rw [htable, List.eraseIdx_eq_take_drop_succ]
          rw [hsplit, List.take_left' hlen, List.drop_left' hlen]
          refine congrArg _ (List.filter_congr fun e' he' => congrArg (!·) ?_)
          refine hleaves.entryOfMap h h₁ (List.mem_of_mem_drop he') ?_
          rw [hsplit]
          exact List.mem_append_right _ he'
        · exact absurd (fun player _ => htemp player) hperm
      next hof =>
        refine (ih h (by omega)).mono fun m' hm' => ⟨hm'.1, hm'.2.1, fun htemp => ?_⟩
        have hkeep : m.entryOfMap mapId difficulty (id, a) = false := by
          rw [entryOfMap_eq hs]
          exact decide_eq_false hof
        rw [hm'.2.2 htemp, hdrop, List.filter_cons_of_pos (by rw [hkeep]; rfl), List.take_add_one,
          hitr, Option.toList_some, List.append_assoc, List.singleton_append]

/-- A reset that released every lockout: no save of the map is left, nobody is bound to one, and the
other saves and binds are as they were. -/
structure Released (mapId difficulty : ℕ) (m m' : Manager) : Prop where
  gone : ∀ {a s}, m'.saves a = some s → ¬ OfMap mapId difficulty s
  table : m'.instanceSaveById =
    m.instanceSaveById.filter fun e => !m.entryOfMap mapId difficulty e
  players : ∀ player, m'.playerBinds player difficulty mapId = none
  groups : ∀ group, m'.groupBinds group difficulty mapId = none
  otherSaves : ∀ {a s}, m.saves a = some s → ¬ OfMap mapId difficulty s → m'.saves a = some s
  otherPlayers : ∀ player d map, ¬ (d = difficulty ∧ map = mapId) →
    m'.playerBinds player d map = m.playerBinds player d map
  otherGroups : ∀ group d map, ¬ (d = difficulty ∧ map = mapId) →
    m'.groupBinds group d map = m.groupBinds group d map

/-- The loop over the whole table releases the lockouts just if nobody is bound permanently. -/
theorem resetAll_released (hdiff : (st.mapDifficulty mapId difficulty).isSome) (h : Linked st m) :
    Yields (resetAll st mapId difficulty m.instanceSaveById.length m 0) fun m' =>
      Linked st m' ∧ Leaves mapId difficulty m m' ∧
        (Temporary m mapId difficulty → Released mapId difficulty m m') := by
  refine (resetAll_spec hdiff h (Nat.le_of_eq (Nat.zero_add _).symm)).mono fun m' hm' => ?_
  obtain ⟨h', hleaves, htable⟩ := hm'
  refine ⟨h', hleaves, fun htemp => ?_⟩
  replace htable : m'.instanceSaveById =
      m.instanceSaveById.filter fun e => !m.entryOfMap mapId difficulty e := htable htemp
  have hgone : ∀ {a s}, m'.saves a = some s → ¬ OfMap mapId difficulty s := by
    intro a s hs hof
    have hin' := h'.registered hs
    have hin := hin'
    rw [htable, List.mem_filter] at hin
    rw [← hleaves.entryOfMap h h' hin.1 hin', entryOfMap_eq hs] at hin
    simp [hof] at hin
  refine
    { gone := hgone
      table := htable
      players := fun player => ?_
      groups := fun group => ?_
      otherSaves := fun {a s} hs hof => ?_
      otherPlayers := hleaves.players
      otherGroups := hleaves.groups }
  · cases hbind : m'.playerBinds player difficulty mapId with
    | none => rfl
    | some bind =>
      obtain ⟨s, hs, hof, -⟩ := h'.players.listed hbind
      exact absurd hof (hgone hs)
  · cases hbind : m'.groupBinds group difficulty mapId with
    | none => rfl
    | some bind =>
      obtain ⟨s, hs, hof, -⟩ := h'.groups.listed hbind
      exact absurd hof (hgone hs)
  · rcases hleaves.saves a with ⟨s', hs', hof'⟩ | hsame
    · rw [hs] at hs'
      cases hs'
      exact absurd hof' hof
    · exact hsame.trans hs

theorem Released.schedule (h : Released mapId difficulty m m') (times : ℕ → ℕ → Option ℕ) (t : ℕ)
    (event : InstResetEvent) :
    Released mapId difficulty m
      ({ m' with resetTimeByMapDifficulty := times }.scheduleReset t event) :=
  ⟨h.gone, h.table, h.players, h.groups, h.otherSaves, h.otherPlayers, h.otherGroups⟩

theorem exists_of_subsequentResetTime {resetTime : ℕ}
    (h : st.subsequentResetTime mapId difficulty resetTime ≠ 0) :
    ∃ delay, st.mapDifficulty mapId difficulty = some delay ∧ delay ≠ 0 := by
  unfold Stores.subsequentResetTime at h
  split at h
  · exact absurd rfl h
  · next delay hdelay =>
    refine ⟨delay, hdelay, fun hzero => ?_⟩
    rw [if_pos hzero] at h
    exact h rfl

theorem resetOrWarnAll_spec (h : Linked st m) (hinst : st.instanceable mapId = true) {resetTime : ℕ}
    (hnext : st.subsequentResetTime mapId difficulty resetTime ≠ 0) :
    Yields (m.resetOrWarnAll st mapId difficulty false resetTime) fun m' =>
      (∀ {player bind}, m.playerBinds player difficulty mapId = some bind → bind.perm →
        m'.playerBinds player difficulty mapId = some bind) ∧
      (Temporary m mapId difficulty → Released mapId difficulty m m') := by
  obtain ⟨delay, hdelay, hpos⟩ := exists_of_subsequentResetTime hnext
  have hdiff : (st.mapDifficulty mapId difficulty).isSome := by
    rw [hdelay]
    rfl
  unfold resetOrWarnAll
  rw [hinst, if_neg (by decide)]
  rw [if_neg hnext]
  refine (resetAll_released hdiff h).bind fun m₁ h₁ => ?_
  obtain ⟨hlinked, hleaves, hreleased⟩ := h₁
  unfold setResetTimeFor
  rw [if_pos (hlinked.timed hdelay hpos)]
  exact .ok ⟨hleaves.permanent, fun htemp => (hreleased htemp).schedule _ _ _⟩

/-- One raid with one reset delay, and nobody in its instances. -/
def raidStores : Stores where
  instanceable map := map = 532
  mapDifficulty map d := if map = 532 ∧ d = 0 then some (7 * day) else none
  rated delay := delay
  instanceResetTimeHour := 4
  havePlayers _ _ := false

/-- Player 7 is bound to instance 5 of the raid. -/
def boundRaid (perm : Bool) : Manager where
  saves := Function.update (fun _ => none) 0 (some ⟨5, 532, 0, [7], [], false⟩)
  instanceSaveById := [(5, 0)]
  playerBinds := setBind (fun _ _ _ => none) 7 0 532 (some ⟨0, perm⟩)
  groupBinds _ _ _ := none
  lockInstLists := false
  resetTimeByMapDifficulty map d := if map = 532 ∧ d = 0 then some 0 else none
  resetTimeQueue := []

theorem boundRaid_save {perm : Bool} (h : (boundRaid perm).saves a = some s) :
    a = 0 ∧ s = ⟨5, 532, 0, [7], [], false⟩ := by
  by_cases ha : a = 0
  · subst ha
    exact ⟨rfl, (Option.some.inj h).symm⟩
  · replace h : Function.update (fun _ => none) 0 _ a = some s := h
    rw [Function.update_of_ne ha] at h
    cases h

theorem linked_boundRaid (perm : Bool) : Linked raidStores (boundRaid perm) where
  keys := by simp [boundRaid]
  loaded := by
    intro id a hmem
    obtain ⟨rfl, rfl⟩ := Prod.mk.inj (List.mem_singleton.mp hmem)
    exact ⟨_, rfl, rfl, rfl⟩
  registered := by
    intro a s hs
    obtain ⟨rfl, rfl⟩ := boundRaid_save hs
    exact List.mem_singleton_self _
  players :=
    { listed := by
        intro player d map bind hbind
        replace hbind : (if player = 7 ∧ d = 0 ∧ map = 532 then some ⟨0, perm⟩ else none) =
          some bind := hbind
        split at hbind
        · next heq =>
          obtain ⟨rfl, rfl, rfl⟩ := heq
          cases hbind
          exact ⟨_, rfl, ⟨rfl, rfl⟩, List.mem_singleton_self _⟩
        · cases hbind
      bound := by
        intro a s player hs hmem
        obtain ⟨rfl, rfl⟩ := boundRaid_save hs
        obtain rfl := List.mem_singleton.mp hmem
        exact ⟨_, rfl, rfl⟩ }
  groups :=
    { listed := nofun
      bound := by
        intro a s group hs hmem
        obtain ⟨rfl, rfl⟩ := boundRaid_save hs
        cases hmem }
  timed := by
    intro map d delay hdelay _
    replace hdelay : (if map = 532 ∧ d = 0 then some (7 * day) else none) = some delay := hdelay
    split at hdelay
    · next heq => exact congrArg Option.isSome (if_pos heq)
    · cases hdelay

/-- **When a global reset releases every lockout**: just if no player is bound permanently to a save of
the map. -/
theorem released_iff_temporary (st : Stores) (m : Manager) (mapId difficulty resetTime : ℕ)
    (h : Linked st m) (hinst : st.instanceable mapId = true)
    (hnext : st.subsequentResetTime mapId difficulty resetTime ≠ 0) :
    Yields (m.resetOrWarnAll st mapId difficulty false resetTime)
        (fun m' => Released mapId difficulty m m') ↔ Temporary m mapId difficulty := by
  have hspec := resetOrWarnAll_spec h hinst hnext
  constructor
  · intro hreleased player bind hbind
    obtain ⟨m', -, hdone, hperm, -⟩ := hreleased.and hspec
    cases hp : bind.perm with
    | false => rfl
    | true =>
      have hstill := hperm hbind hp
      rw [hdone.players player] at hstill
      cases hstill
  · intro htemp
    exact hspec.mono fun m' hm' => hm'.2 htemp

/-- A bind that is not permanent. -/
theorem released_boundRaid :
    Yields ((boundRaid false).resetOrWarnAll raidStores 532 0 false 0)
        (fun m' => Released 532 0 (boundRaid false) m') ↔ Temporary (boundRaid false) 532 0 :=
  released_iff_temporary raidStores (boundRaid false) 532 0 0 (linked_boundRaid false) (by decide)
    (by decide)

/-- A permanent bind survives the reset of its raid, and with it the save. -/
theorem not_released_of_permanent :
    Linked raidStores (boundRaid true) ∧ raidStores.instanceable 532 = true ∧
      raidStores.subsequentResetTime 532 0 0 ≠ 0 ∧
      ((boundRaid true).resetOrWarnAll raidStores 532 0 false 0).map (fun m' =>
        (m'.instanceSaveById, m'.playerBinds 7 0 532)) = .ok ([(5, 0)], some ⟨0, true⟩) ∧
      ¬ Yields ((boundRaid true).resetOrWarnAll raidStores 532 0 false 0)
        fun m' => Released 532 0 (boundRaid true) m' := by
  have hrun : ((boundRaid true).resetOrWarnAll raidStores 532 0 false 0).map (fun m' =>
      (m'.instanceSaveById, m'.playerBinds 7 0 532)) = .ok ([(5, 0)], some ⟨0, true⟩) := by
    decide +kernel
  refine ⟨linked_boundRaid true, by decide, by decide, hrun, ?_⟩
  rintro ⟨m', hm', hreleased⟩
  rw [hm'] at hrun
  have hbind := congrArg Prod.snd (Except.ok.inj hrun)
  exact absurd ((hreleased.players 7).symm.trans hbind) nofun

end Manager

end Sunstrider.Instances
