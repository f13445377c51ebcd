import Sunstrider.Spells.SpellHistory

/-!
# What the cooldown tables point to

Every category that is on cooldown points to a live entry of that category (`SpellHistory.Sound`). A
write keeps this if it does not give the entry of a spell, to which the entry's category points,
another category (`SpellHistory.KeepsCategory`): the write changes the entry in place, and the pointer
of the old category stays. An erased entry takes along the category that it has then and no other, so
such a pointer later dangles.
-/

namespace Sunstrider.Spells

open Sunstrider.Lib

namespace SpellHistory

/-- The pointer is to a live entry of that category. -/
def Points (h : SpellHistory) (categoryId : ℕ) (p : EntryPtr) : Prop :=
  ∃ node, h.spellCooldowns.lookup p.spellId = some node ∧ node.serial = p.serial ∧
    node.entry.categoryId = categoryId

/-- Each category on cooldown points to a live entry of it. -/
def Sound (h : SpellHistory) : Prop :=
  ∀ c p, h.categoryCooldowns.lookup c = some p → h.Points c p

/-- Where the category of the spell's entry points to it, the entry is of the category `c`. -/
def KeepsCategory (h : SpellHistory) (spellId c : ℕ) : Prop :=
  ∀ node ∈ h.spellCooldowns.lookup spellId,
    ∀ p ∈ h.categoryCooldowns.lookup node.entry.categoryId,
      p.spellId = spellId → c = node.entry.categoryId

instance (h : SpellHistory) (spellId c : ℕ) : Decidable (h.KeepsCategory spellId c) :=
  inferInstanceAs (Decidable (∀ node ∈ h.spellCooldowns.lookup spellId,
    ∀ p ∈ h.categoryCooldowns.lookup node.entry.categoryId,
      p.spellId = spellId → c = node.entry.categoryId))

variable {h h' : SpellHistory} {env : Env} {m : Moment}

theorem sound_empty : Sound {} := fun c p hp => by cases hp

/-! ## Writes -/

@[simp] theorem categoryCooldowns_write (h : SpellHistory) (s : ℕ) (e : CooldownEntry) :
    (h.write s e).categoryCooldowns = h.categoryCooldowns := rfl

theorem lookup_write (h : SpellHistory) (s t : ℕ) (e : CooldownEntry) :
    (h.write s e).spellCooldowns.lookup t =
      if t = s then some ⟨(h.nodeAt s).serial, e⟩ else h.spellCooldowns.lookup t :=
  lookup_insert_ite h.spellCooldowns s t _

theorem lookup_point (h : SpellHistory) (c c' s : ℕ) :
    (h.point c s).categoryCooldowns.lookup c' =
      if c' = c then some ⟨s, (h.nodeAt s).serial⟩ else h.categoryCooldowns.lookup c' :=
  lookup_insert_ite h.categoryCooldowns c c' _

variable {s : ℕ} {node : Node}

theorem nodeAt_eq (hs : h.spellCooldowns.lookup s = some node) : h.nodeAt s = node := by
  simp [nodeAt, hs]

theorem nodeAt_write (h : SpellHistory) (s : ℕ) (e : CooldownEntry) :
    (h.write s e).nodeAt s = ⟨(h.nodeAt s).serial, e⟩ :=
  nodeAt_eq (by rw [lookup_write, if_pos rfl])

theorem lookup_record (h : SpellHistory) (s t : ℕ) (e : CooldownEntry) :
    (h.record s e).spellCooldowns.lookup t =
      if t = s then some ⟨(h.nodeAt s).serial, e⟩ else h.spellCooldowns.lookup t := by
  rw [← lookup_write, record]
  split <;> rfl

theorem lookup_category_record (h : SpellHistory) (s c : ℕ) (e : CooldownEntry) :
    (h.record s e).categoryCooldowns.lookup c =
      if e.categoryId ≠ 0 ∧ c = e.categoryId then some ⟨s, (h.nodeAt s).serial⟩
      else h.categoryCooldowns.lookup c := by
  rw [record]
  by_cases hzero : e.categoryId ≠ 0
  · rw [if_pos hzero, lookup_point, nodeAt_write]
    simp only [hzero, ne_eq, not_false_eq_true, true_and, categoryCooldowns_write]
  · rw [if_neg hzero, if_neg fun hc => hzero hc.1, categoryCooldowns_write]

variable {c : ℕ} {p : EntryPtr} {e : CooldownEntry}

theorem Points.write (hp : h.categoryCooldowns.lookup c = some p) (hpoints : h.Points c p)
    (hkeep : h.KeepsCategory s e.categoryId) : (h.write s e).Points c p := by
  obtain ⟨node, hnode, hserial, rfl⟩ := hpoints
  by_cases hs : p.spellId = s
  · rw [hs] at hnode
    have hcategory : e.categoryId = node.entry.categoryId := hkeep node hnode p hp hs
    refine ⟨⟨(h.nodeAt s).serial, e⟩, ?_, ?_, hcategory⟩
    · rw [lookup_write, if_pos hs]
    · rw [nodeAt_eq hnode, ← hserial]
  · exact ⟨node, by rw [lookup_write, if_neg hs, hnode], hserial, rfl⟩

theorem Sound.write (hsound : h.Sound) (hkeep : h.KeepsCategory s e.categoryId) :
    (h.write s e).Sound :=
  fun c p hp => Points.write hp (hsound c p hp) hkeep

theorem Sound.record (hsound : h.Sound) (hkeep : h.KeepsCategory s e.categoryId) :
    (h.record s e).Sound := by
  intro c p hp
  rw [lookup_category_record] at hp
  split at hp
  next hc =>
    cases hp
    exact ⟨⟨(h.nodeAt s).serial, e⟩, by rw [lookup_record, if_pos rfl], rfl, hc.2.symm⟩
  next hc =>
    obtain ⟨node, hnode, hrest⟩ := (Points.write hp (hsound c p hp) hkeep)
    exact ⟨node, by rw [lookup_record, ← lookup_write, hnode], hrest⟩

/-! ## Reads -/

theorem deref_eq (hnode : h.spellCooldowns.lookup p.spellId = some node)
    (hserial : node.serial = p.serial) : h.deref p = .ok node.entry := by
  simp only [deref, hnode, if_pos hserial]

theorem Sound.deref (hsound : h.Sound) (hp : h.categoryCooldowns.lookup c = some p) :
    Yields (h.deref p) fun e => e.categoryId = c := by
  obtain ⟨node, hnode, hserial, hc⟩ := hsound c p hp
  exact ⟨node.entry, deref_eq hnode hserial, hc⟩

theorem Sound.cooldownEnd (hsound : h.Sound) (spellInfo : SpellInfo) :
    Yields (h.cooldownEnd spellInfo) fun _ => True := by
  rw [SpellHistory.cooldownEnd]
  split
  · exact .ok trivial
  · split
    · exact .ok trivial
    · next p hp => exact (hsound.deref hp).bind fun e _ => .ok trivial

theorem Sound.getRemainingCooldown (hsound : h.Sound) (now : ℕ) (spellInfo : SpellInfo) :
    Yields (h.getRemainingCooldown now spellInfo) fun _ => True := by
  refine (hsound.cooldownEnd spellInfo).bind fun e _ => ?_
  cases e with
  | none => exact .ok trivial
  | some e => exact .ok trivial

theorem Sound.categorySpell (hsound : h.Sound) (env : Env) (m : Moment) (spellInfo : SpellInfo)
    (itemId : ℕ) : Yields (h.categorySpell env m spellInfo itemId) fun _ => True := by
  rw [SpellHistory.categorySpell]
  split
  · split
    · exact .ok trivial
    · next p hp => exact (hsound.deref hp).bind fun e _ => .ok trivial
  · exact .ok trivial

theorem avoids_assertSpellInfo (env : Env) (spellId : ℕ) :
    Avoids .freedEntry (env.assertSpellInfo spellId) fun _ => True := by
  rw [Env.assertSpellInfo]
  split
  · exact .ok trivial
  · exact fun h => by cases h

/-! ## Erasures -/

theorem eraseWhere_spellCooldowns (h : SpellHistory) (predicate : ℕ → CooldownEntry → Bool) :
    (h.eraseWhere predicate).spellCooldowns =
      h.spellCooldowns.entries.foldl
        (fun m itr => if predicate itr.1 itr.2.entry then m.erase itr.1 else m) h.spellCooldowns := by
  refine (List.foldl_hom spellCooldowns fun h itr => ?_).symm
  split <;> rfl

theorem eraseWhere_categoryCooldowns (h : SpellHistory) (predicate : ℕ → CooldownEntry → Bool) :
    (h.eraseWhere predicate).categoryCooldowns =
      h.spellCooldowns.entries.foldl
        (fun m itr => if predicate itr.1 itr.2.entry then m.erase itr.2.entry.categoryId else m)
        h.categoryCooldowns := by
  refine (List.foldl_hom categoryCooldowns fun h itr => ?_).symm
  split <;> rfl

theorem lookup_eraseWhere (h : SpellHistory) (predicate : ℕ → CooldownEntry → Bool) :
    (h.eraseWhere predicate).spellCooldowns.lookup s = some node ↔
      h.spellCooldowns.lookup s = some node ∧ predicate s node.entry = false := by
  rw [eraseWhere_spellCooldowns,
    lookup_sweep (fun itr : Iterator => predicate itr.1 itr.2.entry) (fun itr => itr.1)]
  refine and_congr_right fun hs => ⟨fun h => ?_, ?_⟩
  · have hkept := h ⟨s, node⟩ (AList.mem_lookup_iff.mp hs)
    simpa using hkept
  · rintro hpred ⟨s', node'⟩ hmem hpred' rfl
    cases hs.symm.trans (AList.mem_lookup_iff.mpr hmem)
    rw [hpred] at hpred'
    cases hpred'

theorem lookup_category_eraseWhere (h : SpellHistory) (predicate : ℕ → CooldownEntry → Bool) :
    (h.eraseWhere predicate).categoryCooldowns.lookup c = some p ↔
      h.categoryCooldowns.lookup c = some p ∧
        ∀ s node, h.spellCooldowns.lookup s = some node → predicate s node.entry = true →
          node.entry.categoryId ≠ c := by
  rw [eraseWhere_categoryCooldowns, lookup_sweep (fun itr : Iterator => predicate itr.1 itr.2.entry)
    (fun itr => itr.2.entry.categoryId)]
  refine and_congr_right fun _ => ⟨fun h s node hs => ?_, fun h itr hmem => ?_⟩
  · exact h ⟨s, node⟩ (AList.mem_lookup_iff.mp hs)
  · exact h itr.1 itr.2 (AList.mem_lookup_iff.mpr hmem)

theorem Sound.eraseWhere (hsound : h.Sound) (predicate : ℕ → CooldownEntry → Bool) :
    (h.eraseWhere predicate).Sound := by
  intro c p hp
  obtain ⟨hp, hkept⟩ := (lookup_category_eraseWhere h predicate).mp hp
  obtain ⟨node, hnode, hserial, hc⟩ := hsound c p hp
  refine ⟨node, (lookup_eraseWhere h predicate).mpr ⟨hnode, ?_⟩, hserial, hc⟩
  by_contra hpred
  exact hkept p.spellId node hnode (by simpa using hpred) hc

theorem Sound.resetCooldown (hsound : h.Sound) (spellId : ℕ) : (h.resetCooldown spellId).Sound := by
  rw [SpellHistory.resetCooldown]
  split
  · exact hsound
  · next node hs =>
    intro c p hp
    rw [eraseCooldown, lookup_erase_ite] at hp
    split at hp
    · cases hp
    · next hc =>
      obtain ⟨node', hnode', hserial, rfl⟩ := hsound c p hp
      refine ⟨node', ?_, hserial, rfl⟩
      have hne : p.spellId ≠ spellId := by
        intro heq
        rw [heq, hs] at hnode'
        cases hnode'
        exact hc rfl
      rw [eraseCooldown, lookup_erase_ite, if_neg hne, hnode']

/-! ## Update -/

/-- The categories that the first loop of `Update` takes out. -/
def expired (now : ℕ) (h : SpellHistory) (p : EntryPtr) : Bool :=
  match h.spellCooldowns.lookup p.spellId with
  | some node => node.entry.categoryEnd < now
  | none => false

/-- The first loop of `Update` reads no freed entry, and takes out the categories that are over. -/
theorem Sound.expireCategories (hsound : h.Sound) (now : ℕ) :
    Yields (h.expireCategories now) fun h' =>
      h'.spellCooldowns = h.spellCooldowns ∧
        ∀ c p, h'.categoryCooldowns.lookup c = some p ↔
          h.categoryCooldowns.lookup c = some p ∧ expired now h p = false := by
  have hloop := foldlM_eq_ok (F := Fault) (l := h.categoryCooldowns.entries)
    (f := fun categoryCooldowns itr => do
      let entry ← h.deref itr.2
      .ok (if entry.categoryEnd < now then categoryCooldowns.erase itr.1 else categoryCooldowns))
    (g := fun m itr => if expired now h itr.2 then m.erase itr.1 else m)
    (fun m itr hmem => by
      obtain ⟨node, hnode, hserial, -⟩ := hsound itr.1 itr.2 (AList.mem_lookup_iff.mpr hmem)
      simp only [deref_eq hnode hserial, expired, hnode, decide_eq_true_eq]
      rfl) h.categoryCooldowns
  rw [SpellHistory.expireCategories, hloop]
  refine .ok ⟨rfl, fun c p => ?_⟩
  rw [lookup_sweep (fun itr : Sigma fun _ : ℕ => EntryPtr => expired now h itr.2)]
  refine and_congr_right fun hp => ⟨fun hkept => ?_, ?_⟩
  · have hone := hkept ⟨c, p⟩ (AList.mem_lookup_iff.mp hp)
    simpa using hone
  · rintro hlive ⟨c', p'⟩ hmem hexpired rfl
    cases hp.symm.trans (AList.mem_lookup_iff.mpr hmem)
    rw [hlive] at hexpired
    cases hexpired

/-- The tables after `Update`: the spells that are over are gone, and a category is gone that is over
or that one of those spells has. -/
theorem Sound.update (hsound : h.Sound) (now : ℕ) :
    Yields (h.update now) fun h' => h'.Sound ∧
      (∀ s node, h'.spellCooldowns.lookup s = some node ↔
        h.spellCooldowns.lookup s = some node ∧ now ≤ node.entry.cooldownEnd) ∧
      ∀ c p, h'.categoryCooldowns.lookup c = some p ↔
        (h.categoryCooldowns.lookup c = some p ∧ expired now h p = false) ∧
          ∀ s node, h.spellCooldowns.lookup s = some node → node.entry.cooldownEnd < now →
            node.entry.categoryId ≠ c := by
  refine (hsound.expireCategories now).bind fun h' ⟨hspells, hcategories⟩ => .ok ⟨?_, ?_, ?_⟩
  · refine Sound.eraseWhere (fun c p hp => ?_) _
    obtain ⟨node, hnode, hrest⟩ := hsound c p ((hcategories c p).mp hp).1
    exact ⟨node, by rw [hspells, hnode], hrest⟩
  · intro s node
    rw [lookup_eraseWhere, hspells, decide_eq_false_iff_not, Nat.not_lt]
  · intro c p
    rw [lookup_category_eraseWhere, hcategories, hspells]
    simp

/-! ## What each call has to keep -/

/-- A spell that starts its cooldown writes its entry with the category of its durations. -/
def StartKeeps (env : Env) (m : Moment) (itemId : ℕ) (onHold : Bool) (h : SpellHistory)
    (spellInfo : SpellInfo) : Prop :=
  (env.startEnds m spellInfo itemId onHold).recTime ≠ m.now →
    h.KeepsCategory spellInfo.id (env.getCooldownDurations spellInfo itemId).categoryId

/-- A known spell that is locked is written without a category. -/
def LockKeeps (env : Env) (now : ℕ) (schoolMask : BitVec 32) (lockoutTime : ℕ) (h : SpellHistory)
    (spellId : ℕ) : Prop :=
  ∀ spellInfo remaining, env.getSpellInfo spellId = some spellInfo →
    locks spellInfo schoolMask = true → h.getRemainingCooldown now spellInfo = .ok remaining →
    remaining < lockoutTime → h.KeepsCategory spellId 0

/-- A row of a known spell is written with the row's category. -/
def LoadKeeps (env : Env) (h : SpellHistory) (row : CooldownRow) : Prop :=
  (env.getSpellInfo row.spell).isSome → h.KeepsCategory row.spell row.categoryId

/-- A saved entry that is restored is written with the category it was saved with. -/
def RestoreKeeps (h : SpellHistory) (saved : Sigma fun _ : ℕ => CooldownEntry) : Prop :=
  saved.2.onHold = false → (h.nodeAt saved.1).entry.onHold = false →
    h.KeepsCategory saved.1 saved.2.categoryId

/-- **The condition of a call**: no entry that it writes, and to which the entry's category points,
gets another category. -/
def Keeps (env : Env) (h : SpellHistory) (call : Call) : Prop :=
  let m := call.moment
  match call.op with
  | .addCooldown spellId _ _ categoryId _ _ => h.KeepsCategory spellId categoryId
  | .addCooldownFor spellId _ _ => h.KeepsCategory spellId 0
  | .startCooldown spellInfo itemId onHold => StartKeeps env m itemId onHold h spellInfo
  | .sendCooldownEvent spellInfo itemId startCooldown =>
    startCooldown = true → ∀ spells, h.eventSpells env m spellInfo itemId = .ok spells →
      AllAlong (fun h spellInfo => h.startCooldown env m spellInfo itemId false)
        (StartKeeps env m itemId false) h spells
  | .lockSpellSchool schoolMask lockoutTime =>
    Admitted (lockSpell env m.now schoolMask lockoutTime) (LockKeeps env m.now schoolMask lockoutTime)
      h m.owner.knownSpells
  | .loadFromDB rows =>
    AllAlong (loadRow env) (LoadKeeps env) h rows
  | .restoreCooldownStateAfterDuel =>
    ∀ h', h.spellCooldowns.entries.foldlM (keepProfession env) h = .ok h' →
      AllAlong restoreEntry RestoreKeeps h' h'.spellCooldownsBeforeDuel.entries
  | .resetCooldown _ | .resetCooldowns _ | .resetAllCooldowns | .saveCooldownStateBeforeDuel
  | .update => True

section

variable (hsound : h.Sound)

include hsound

theorem Sound.startCooldown {spellInfo : SpellInfo} {itemId : ℕ} {onHold : Bool}
    (hkeep : StartKeeps env m itemId onHold h spellInfo) :
    (h.startCooldown env m spellInfo itemId onHold).Sound := by
  rw [SpellHistory.startCooldown]
  split
  · next hrec => exact hsound.record (hkeep hrec)
  · exact hsound

theorem Sound.eventSpells (env : Env) (m : Moment) (spellInfo : SpellInfo)
    (itemId : ℕ) : Avoids .freedEntry (h.eventSpells env m spellInfo itemId) fun _ => True := by
  refine (Avoids.of_yields (hsound.categorySpell env m spellInfo itemId)).bind fun other _ => ?_
  cases other with
  | none => exact .ok trivial
  | some spellId => exact (avoids_assertSpellInfo env spellId).bind fun i _ => .ok trivial

theorem Sound.sendCooldownEvent {spellInfo : SpellInfo} {itemId : ℕ} {startCooldown : Bool}
    (hkeep : startCooldown = true → ∀ spells, h.eventSpells env m spellInfo itemId = .ok spells →
      AllAlong (fun h spellInfo => h.startCooldown env m spellInfo itemId false)
        (StartKeeps env m itemId false) h spells) :
    Avoids .freedEntry (h.sendCooldownEvent env m spellInfo itemId startCooldown) Sound := by
  have hspells := hsound.eventSpells env m spellInfo itemId
  rw [SpellHistory.sendCooldownEvent]
  split
  · next hstart =>
    cases hev : h.eventSpells env m spellInfo itemId with
    | error f =>
      rw [hev] at hspells
      exact hspells
    | ok spells =>
      have keeps : ∀ h i, Sound h → StartKeeps env m itemId false h i →
          (h.startCooldown env m i itemId false).Sound := fun h i hs hk => hs.startCooldown hk
      exact foldl_keeps_of_allAlong keeps hsound (hkeep hstart spells hev)
  · exact (Avoids.of_yields (hsound.categorySpell env m spellInfo itemId)).bind fun _ _ => .ok hsound

theorem Sound.lockSpell {now lockoutTime spellId : ℕ} {schoolMask : BitVec 32}
    (hkeep : LockKeeps env now schoolMask lockoutTime h spellId) :
    Avoids .freedEntry (lockSpell env now schoolMask lockoutTime h spellId) Sound := by
  rw [SpellHistory.lockSpell, Env.assertSpellInfo]
  cases hinfo : env.getSpellInfo spellId with
  | none => exact fun h => by cases h
  | some spellInfo =>
    show Avoids _ (if _ then _ else _) _
    split
    · next hlocks =>
      obtain ⟨remaining, hremaining, -⟩ := hsound.getRemainingCooldown now spellInfo
      rw [hremaining]
      refine Avoids.ok ?_
      split
      · next hlt => exact hsound.record (hkeep spellInfo remaining hinfo hlocks hremaining hlt)
      · exact hsound
    · exact hsound

theorem Sound.loadRow {row : CooldownRow} (hkeep : LoadKeeps env h row) :
    (loadRow env h row).Sound := by
  rw [SpellHistory.loadRow, readCooldown]
  split
  · exact hsound
  · next hread =>
    split at hread
    · next hknown =>
      cases hread
      exact hsound.record (hkeep hknown)
    · cases hread

theorem avoids_keepProfession (itr : Iterator) :
    Avoids .freedEntry (keepProfession env h itr) Sound := by
  refine (avoids_assertSpellInfo env itr.1).bind fun spellInfo _ => ?_
  refine Avoids.ok ?_
  split
  · exact hsound
  · exact hsound

theorem Sound.restoreEntry {saved : Sigma fun _ : ℕ => CooldownEntry}
    (hkeep : RestoreKeeps h saved) : (SpellHistory.restoreEntry h saved).Sound := by
  rw [SpellHistory.restoreEntry]
  split
  · exact hsound
  · next hsaved =>
    split
    · exact hsound
    · next hhold => exact hsound.write (hkeep (by simpa using hsaved) (by simpa using hhold))

theorem Sound.restoreCooldownStateAfterDuel
    (hkeep : ∀ h', h.spellCooldowns.entries.foldlM (keepProfession env) h = .ok h' →
      AllAlong SpellHistory.restoreEntry RestoreKeeps h' h'.spellCooldownsBeforeDuel.entries) :
    Avoids .freedEntry (h.restoreCooldownStateAfterDuel env m) Sound := by
  rw [SpellHistory.restoreCooldownStateAfterDuel]
  split
  · have hfirst : Avoids .freedEntry (h.spellCooldowns.entries.foldlM (keepProfession env) h) Sound :=
      Avoids.foldlM _ hsound fun _ itr _ hs => avoids_keepProfession hs itr
    cases hrun : h.spellCooldowns.entries.foldlM (keepProfession env) h with
    | error f =>
      rw [hrun] at hfirst
      exact hfirst
    | ok h' =>
      rw [hrun] at hfirst
      have keeps : ∀ h saved, Sound h → RestoreKeeps h saved → (SpellHistory.restoreEntry h saved).Sound :=
        fun h saved hs hk => hs.restoreEntry hk
      exact foldl_keeps_of_allAlong keeps hfirst (hkeep h' hrun)
  · exact hsound

/-- A call that meets its condition keeps the tables sound. -/
theorem step_keeps {call : Call} (hkeep : Keeps env h call) :
    Avoids .freedEntry (step env h call) Sound := by
  obtain ⟨m, op⟩ := call
  cases op with
  | addCooldown spellId itemId cooldownEnd categoryId categoryEnd onHold =>
    exact hsound.record hkeep
  | addCooldownFor spellId itemId cooldownDuration => exact hsound.record hkeep
  | startCooldown spellInfo itemId onHold => exact hsound.startCooldown hkeep
  | sendCooldownEvent spellInfo itemId startCooldown => exact hsound.sendCooldownEvent hkeep
  | lockSpellSchool schoolMask lockoutTime =>
    exact run_avoids_of_admitted (fun _ _ hs hk => Sound.lockSpell hs hk) hsound hkeep
  | resetCooldown spellId => exact hsound.resetCooldown spellId
  | resetCooldowns predicate => exact hsound.eraseWhere predicate
  | resetAllCooldowns => exact sound_empty
  | loadFromDB rows =>
    have keeps : ∀ h row, Sound h → LoadKeeps env h row → (loadRow env h row).Sound :=
      fun h row hs hk => hs.loadRow hk
    exact foldl_keeps_of_allAlong keeps hsound hkeep
  | saveCooldownStateBeforeDuel => exact hsound
  | restoreCooldownStateAfterDuel => exact hsound.restoreCooldownStateAfterDuel hkeep
  | update => exact (Avoids.of_yields (hsound.update m.now)).mono fun _ h => h.1

end

/-- No question and no clock tick reads a freed entry. -/
structure NeverFreed (env : Env) (h : SpellHistory) : Prop where
  update : ∀ now, Avoids .freedEntry (h.update now) fun _ => True
  getRemainingCooldown : ∀ now spellInfo,
    Avoids .freedEntry (h.getRemainingCooldown now spellInfo) fun _ => True
  sendCooldownEvent : ∀ m spellInfo itemId startCooldown,
    Avoids .freedEntry (h.sendCooldownEvent env m spellInfo itemId startCooldown) fun _ => True

theorem Sound.neverFreed (hsound : h.Sound) (env : Env) : NeverFreed env h where
  update now := (Avoids.of_yields (hsound.update now)).mono fun _ _ => trivial
  getRemainingCooldown now spellInfo := Avoids.of_yields (hsound.getRemainingCooldown now spellInfo)
  sendCooldownEvent m spellInfo itemId startCooldown := by
    rw [SpellHistory.sendCooldownEvent]
    split
    · exact (hsound.eventSpells env m spellInfo itemId).bind fun _ _ => .ok trivial
    · refine (Avoids.of_yields (hsound.categorySpell env m spellInfo itemId)).bind fun _ _ => ?_
      exact .ok trivial

/-- **Cooldown tables do not dangle** in a run whose every call keeps the category of each entry that
it overwrites and that its category points to. -/
theorem sound_of_keeps (env : Env) (calls : List Call)
    (keeps : Admitted (step env) (Keeps env) {} calls) :
    Avoids .freedEntry (run (step env) {} calls) fun h => h.Sound ∧ NeverFreed env h := by
  have hrun : Avoids .freedEntry (run (step env) {} calls) Sound :=
    run_avoids_of_admitted (fun _ _ hs hk => step_keeps hs hk) sound_empty keeps
  exact hrun.mono fun h hsound => ⟨hsound, hsound.neverFreed env⟩

/-! ## A shock that is interrupted -/

/-- A spell of the category 19, with a cooldown of its own. -/
def shock : SpellInfo where
  id := 8042
  recoveryTime := 0
  categoryRecoveryTime := 6000
  category := 19
  schoolMask := 8
  cooldownStartedOnEvent := false
  preventionTypeSilence := true
  autoRepeatRangedSpell := false
  ignoreCategoryCooldownMods := false

/-- A store of that one spell, without items. -/
def shockStore : Env where
  getSpellInfo := fun spellId => if spellId = 8042 then some shock else none
  getItemTemplate := fun _ => none

/-- A player that knows the spell and has no modifiers. -/
def shaman : Owner where
  isPlayer := true
  hasPlayerOwner := true
  knownSpells := [8042]
  attackTime := 2000
  applyCooldownMod := fun _ cooldown => cooldown
  cooldownMod := 0
  modsSpell := fun _ => true

/-- The shock starts its cooldown, its school is locked for eight seconds, the cooldown is reset, and
the clock ticks. -/
def interrupted : List Call :=
  [⟨⟨0, shaman⟩, .startCooldown shock 0 false⟩, ⟨⟨seconds 1, shaman⟩, .lockSpellSchool 8 8000⟩,
    ⟨⟨seconds 2, shaman⟩, .resetCooldown 8042⟩, ⟨⟨seconds 3, shaman⟩, .update⟩]

/-- The shock starts its cooldown, the clock ticks, and it starts its cooldown once more. -/
def recast : List Call :=
  [⟨⟨0, shaman⟩, .startCooldown shock 0 false⟩, ⟨⟨seconds 3, shaman⟩, .update⟩,
    ⟨⟨seconds 6, shaman⟩, .startCooldown shock 0 false⟩]

theorem sound_of_keeps_recast :
    Avoids .freedEntry (run (step shockStore) {} recast) fun h =>
      h.Sound ∧ NeverFreed shockStore h :=
  sound_of_keeps shockStore recast ⟨fun _ => by decide, trivial, fun _ => by decide, trivial⟩

/-- The category of the interrupted shock outlives its entry. -/
theorem interrupted_reads_freed : run (step shockStore) {} interrupted = .error .freedEntry := rfl

end SpellHistory

end Sunstrider.Spells
