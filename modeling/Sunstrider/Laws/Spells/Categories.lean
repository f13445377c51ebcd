import Mathlib.Data.List.Induction
import Sunstrider.Laws.Spells.Cooldowns

/-!
# How long a category is on cooldown

The category table keeps one entry for each category, that of the spell which was added last. So the
table knows the latest end of a category only as long as no later spell brings an earlier end and
`Update` erases no entry of the category before that end. Along runs of this kind (`Lasts`) a category
is on cooldown just if some call set an end for it that the last `Update` had not passed.
-/

namespace Sunstrider.Spells

open Sunstrider.Lib

/-- The arguments of `AddCooldown`, and when it is called. -/
structure Adding where
  now : ℕ
  spellId : ℕ
  itemId : ℕ
  cooldownEnd : ℕ
  categoryId : ℕ
  categoryEnd : ℕ
  onHold : Bool

/-- `AddCooldown` of these arguments. -/
def Adding.apply (a : Adding) (h : SpellHistory) : SpellHistory :=
  h.addCooldown a.spellId a.itemId a.cooldownEnd a.categoryId a.categoryEnd a.onHold

/-- A call of `AddCooldown` or of `Update`. -/
inductive CategoryCall
  | add (a : Adding)
  | update (now : ℕ)

namespace CategoryCall

def now : CategoryCall → ℕ
  | .add a => a.now
  | .update now => now

/-- One call. -/
def step (h : SpellHistory) : CategoryCall → Except Fault SpellHistory
  | .add a => .ok (a.apply h)
  | .update now => h.update now

/-- The time of the last `Update` so far. -/
def lastUpdate (calls : List CategoryCall) : ℕ :=
  calls.foldl (fun t call =>
    match call with
    | .add _ => t
    | .update now => now) 0

/-- Some call set an end for the category that the last `Update` had not passed. -/
def InForce (calls : List CategoryCall) (c : ℕ) : Prop :=
  ∃ a, .add a ∈ calls ∧ a.categoryId = c ∧ lastUpdate calls ≤ a.categoryEnd

/-- **The condition of a call.** An added spell whose entry is the one of a category keeps that
category, and does not bring its category an earlier end. No spell is over at an `Update` while its
category is on cooldown and goes on. -/
def Lasts (h : SpellHistory) : CategoryCall → Prop
  | .add a =>
    h.KeepsCategory a.spellId a.categoryId ∧
      ∀ p ∈ h.categoryCooldowns.lookup a.categoryId, ∀ node ∈ h.spellCooldowns.lookup p.spellId,
        node.entry.categoryEnd ≤ a.categoryEnd
  | .update now =>
    ∀ itr ∈ h.spellCooldowns.entries, itr.2.entry.cooldownEnd < now →
      ∀ p ∈ h.categoryCooldowns.lookup itr.2.entry.categoryId,
        ∀ node ∈ h.spellCooldowns.lookup p.spellId, node.entry.categoryEnd < now

instance (h : SpellHistory) (call : CategoryCall) : Decidable (Lasts h call) :=
  match call with
  | .add _ => inferInstanceAs (Decidable (_ ∧ ∀ p ∈ h.categoryCooldowns.lookup _,
      ∀ node ∈ h.spellCooldowns.lookup p.spellId, node.entry.categoryEnd ≤ _))
  | .update now => inferInstanceAs (Decidable (∀ itr ∈ h.spellCooldowns.entries,
      itr.2.entry.cooldownEnd < now → ∀ p ∈ h.categoryCooldowns.lookup itr.2.entry.categoryId,
        ∀ node ∈ h.spellCooldowns.lookup p.spellId, node.entry.categoryEnd < now))

@[simp] theorem lastUpdate_add (past : List CategoryCall) (a : Adding) :
    lastUpdate (past ++ [.add a]) = lastUpdate past := by
  simp [lastUpdate]

@[simp] theorem lastUpdate_update (past : List CategoryCall) (now : ℕ) :
    lastUpdate (past ++ [.update now]) = now := by
  simp [lastUpdate]

/-- The last `Update` was not later than what is called next. -/
theorem lastUpdate_le {past : List CategoryCall} {call : CategoryCall}
    (mono : (past ++ [call]).Pairwise fun x y => x.now ≤ y.now) : lastUpdate past ≤ call.now := by
  induction past using List.reverseRecOn with
  | nil => exact Nat.zero_le _
  | append_singleton past last ih =>
    rw [List.pairwise_append] at mono
    have hlast : ∀ x ∈ past ++ [last], x.now ≤ call.now := fun x hx =>
      mono.2.2 x hx call (List.mem_singleton_self call)
    cases last with
    | update now =>
      rw [lastUpdate_update]
      exact hlast (.update now) (by simp)
    | add a =>
      rw [lastUpdate_add]
      refine ih (List.pairwise_append.mpr ⟨(List.pairwise_append.mp mono.1).1, by simp, ?_⟩)
      intro x hx y hy
      rw [List.mem_singleton.mp hy]
      exact hlast x (List.mem_append_left _ hx)

/-- What the tables know of the calls so far. -/
structure Tracks (past : List CategoryCall) (h : SpellHistory) : Prop where
  sound : h.Sound
  zero : h.categoryCooldowns.lookup 0 = none
  /-- The entry of a category has the latest end that was set for it. -/
  set : ∀ c p node, h.categoryCooldowns.lookup c = some p →
    h.spellCooldowns.lookup p.spellId = some node →
    ∃ a, .add a ∈ past ∧ a.categoryId = c ∧ a.categoryEnd = node.entry.categoryEnd
  latest : ∀ c p node, h.categoryCooldowns.lookup c = some p →
    h.spellCooldowns.lookup p.spellId = some node →
    ∀ a, .add a ∈ past → a.categoryId = c → a.categoryEnd ≤ node.entry.categoryEnd
  lasting : ∀ c p node, h.categoryCooldowns.lookup c = some p →
    h.spellCooldowns.lookup p.spellId = some node → lastUpdate past ≤ node.entry.categoryEnd
  /-- A category that is not on cooldown is over. -/
  ended : ∀ c, c ≠ 0 → h.categoryCooldowns.lookup c = none →
    ∀ a, .add a ∈ past → a.categoryId = c → a.categoryEnd < lastUpdate past

theorem tracks_nil : Tracks [] {} where
  sound := SpellHistory.sound_empty
  zero := rfl
  set _ _ _ hp := by cases hp
  latest _ _ _ hp := by cases hp
  lasting _ _ _ hp := by cases hp
  ended _ _ _ _ ha := by cases ha

variable {past : List CategoryCall} {h : SpellHistory}

/-- A category is on cooldown just if an end of it is in force. -/
theorem Tracks.isSome_iff (ht : Tracks past h) {c : ℕ} (hc : c ≠ 0) :
    (h.categoryCooldowns.lookup c).isSome = true ↔ InForce past c := by
  cases hp : h.categoryCooldowns.lookup c with
  | none =>
    refine ⟨fun hfalse => (nomatch hfalse), ?_⟩
    rintro ⟨a, ha, hac, hend⟩
    have hover := ht.ended c hc hp a ha hac
    omega
  | some p =>
    refine ⟨fun _ => ?_, fun _ => rfl⟩
    obtain ⟨node, hnode, -⟩ := ht.sound c p hp
    obtain ⟨a, ha, hac, hend⟩ := ht.set c p node hp hnode
    exact ⟨a, ha, hac, hend ▸ ht.lasting c p node hp hnode⟩

/-! ## AddCooldown -/

variable {a : Adding}

/-- After a call a category points to the new entry, if it is the call's category, and to what it
pointed to before otherwise. -/
theorem Tracks.pointed_add (ht : Tracks past h) (hkeep : h.KeepsCategory a.spellId a.categoryId)
    {c : ℕ} {p : EntryPtr} {node : Node} (hp : (a.apply h).categoryCooldowns.lookup c = some p)
    (hnode : (a.apply h).spellCooldowns.lookup p.spellId = some node) :
    c = a.categoryId ∧ node.entry.categoryEnd = a.categoryEnd ∨
      c ≠ a.categoryId ∧ h.categoryCooldowns.lookup c = some p ∧
        h.spellCooldowns.lookup p.spellId = some node := by
  rw [Adding.apply, SpellHistory.addCooldown, SpellHistory.lookup_category_record] at hp
  rw [Adding.apply, SpellHistory.addCooldown, SpellHistory.lookup_record] at hnode
  split at hp
  next hc =>
    cases hp
    rw [if_pos rfl] at hnode
    cases hnode
    exact .inl ⟨hc.2, rfl⟩
  next hc =>
    have hne : c ≠ a.categoryId := by
      rintro rfl
      refine hc ⟨fun hzero => ?_, rfl⟩
      rw [show a.categoryId = 0 from hzero, ht.zero] at hp
      cases hp
    have hspell : p.spellId ≠ a.spellId := by
      intro hs
      obtain ⟨node', hnode', -, rfl⟩ := ht.sound c p hp
      exact hne (hkeep node' (hs ▸ hnode') p hp hs).symm
    rw [if_neg hspell] at hnode
    exact .inr ⟨hne, hp, hnode⟩

theorem mem_add_snoc {b : Adding} :
    CategoryCall.add b ∈ past ++ [.add a] ↔ .add b ∈ past ∨ b = a := by
  simp

theorem Tracks.add (ht : Tracks past h) (hlasts : Lasts h (.add a)) (hnow : lastUpdate past ≤ a.now)
    (hfuture : a.now < a.categoryEnd) : Tracks (past ++ [.add a]) (a.apply h) := by
  obtain ⟨hkeep, hlater⟩ := hlasts
  -- No end of the category so far is later than the new one.
  have hends : a.categoryId ≠ 0 → ∀ b, .add b ∈ past → b.categoryId = a.categoryId →
      b.categoryEnd ≤ a.categoryEnd := by
    intro hzero b hb hbc
    cases hp : h.categoryCooldowns.lookup a.categoryId with
    | none =>
      have hover := ht.ended a.categoryId hzero hp b hb hbc
      omega
    | some p =>
      obtain ⟨node, hnode, -⟩ := ht.sound a.categoryId p hp
      exact Nat.le_trans (ht.latest a.categoryId p node hp hnode b hb hbc) (hlater p hp node hnode)
  have hzero : (a.apply h).categoryCooldowns.lookup 0 = none := by
    rw [Adding.apply, SpellHistory.addCooldown, SpellHistory.lookup_category_record,
      if_neg fun h => h.1 h.2.symm, ht.zero]
  refine ⟨ht.sound.record hkeep, hzero, ?_, ?_, ?_, ?_⟩
  · intro c p node hp hnode
    obtain ⟨rfl, hend⟩ | ⟨-, hp, hnode⟩ := ht.pointed_add hkeep hp hnode
    · exact ⟨a, by simp, rfl, hend.symm⟩
    · obtain ⟨b, hb, hbc⟩ := ht.set c p node hp hnode
      exact ⟨b, List.mem_append_left _ hb, hbc⟩
  · intro c p node hp hnode b hb hbc
    obtain ⟨rfl, hend⟩ | ⟨hne, hp', hnode'⟩ := ht.pointed_add hkeep hp hnode
    · have hne : a.categoryId ≠ 0 := by
        intro h0
        rw [h0, hzero] at hp
        cases hp
      obtain hb | rfl := mem_add_snoc.mp hb
      · exact hend ▸ hends hne b hb hbc
      · exact Nat.le_of_eq hend.symm
    · obtain hb | rfl := mem_add_snoc.mp hb
      · exact ht.latest c p node hp' hnode' b hb hbc
      · exact absurd hbc.symm hne
  · intro c p node hp hnode
    rw [lastUpdate_add]
    obtain ⟨-, hend⟩ | ⟨-, hp, hnode⟩ := ht.pointed_add hkeep hp hnode
    · omega
    · exact ht.lasting c p node hp hnode
  · intro c hc hnone b hb hbc
    rw [Adding.apply, SpellHistory.addCooldown, SpellHistory.lookup_category_record] at hnone
    split at hnone
    · cases hnone
    · next hother =>
      rw [lastUpdate_add]
      obtain hb | rfl := mem_add_snoc.mp hb
      · exact ht.ended c hc hnone b hb hbc
      · exact absurd ⟨hbc ▸ hc, hbc.symm⟩ hother

/-! ## Update -/

theorem mem_add_update {now : ℕ} : CategoryCall.add a ∈ past ++ [.update now] ↔ .add a ∈ past := by
  simp

theorem Tracks.update (ht : Tracks past h) {now : ℕ} (hlasts : Lasts h (.update now))
    (hnow : lastUpdate past ≤ now) :
    Yields (h.update now) (Tracks (past ++ [.update now])) := by
  refine (ht.sound.update now).mono fun h' ⟨hsound, hspells, hcategories⟩ => ?_
  refine ⟨hsound, ?_, ?_, ?_, ?_, ?_⟩
  · cases hp : h'.categoryCooldowns.lookup 0 with
    | none => rfl
    | some p =>
      have hzero := ((hcategories 0 p).mp hp).1.1
      rw [ht.zero] at hzero
      cases hzero
  · intro c p node hp hnode
    obtain ⟨a, ha, hac⟩ := ht.set c p node ((hcategories c p).mp hp).1.1 ((hspells _ node).mp hnode).1
    exact ⟨a, List.mem_append_left _ ha, hac⟩
  · intro c p node hp hnode a ha hac
    exact ht.latest c p node ((hcategories c p).mp hp).1.1 ((hspells _ node).mp hnode).1 a
      (mem_add_update.mp ha) hac
  · intro c p node hp hnode
    have hlive := ((hcategories c p).mp hp).1.2
    simp only [SpellHistory.expired, ((hspells _ node).mp hnode).1, decide_eq_false_iff_not] at hlive
    rw [lastUpdate_update]
    exact Nat.not_lt.mp hlive
  · intro c hc hnone a ha hac
    rw [lastUpdate_update]
    have ha' := mem_add_update.mp ha
    cases hp : h.categoryCooldowns.lookup c with
    | none => exact Nat.lt_of_lt_of_le (ht.ended c hc hp a ha' hac) hnow
    | some p =>
      obtain ⟨node, hnode, -⟩ := ht.sound c p hp
      have hend := ht.latest c p node hp hnode a ha' hac
      -- Either loop that took the category out finds its end passed.
      have hgone : node.entry.categoryEnd < now := by
        by_contra hlast
        have hlive : SpellHistory.expired now h p = false := by
          simpa only [SpellHistory.expired, hnode, decide_eq_false_iff_not] using hlast
        have hkept : h'.categoryCooldowns.lookup c = some p := by
          refine (hcategories c p).mpr ⟨⟨hp, hlive⟩, fun s node' hs hover => ?_⟩
          rintro rfl
          exact hlast (hlasts ⟨s, node'⟩ (AList.mem_lookup_iff.mp hs) hover p hp node hnode)
        rw [hnone] at hkept
        cases hkept
      omega

/-! ## Runs -/

/-- The ends that the calls set are in the future. -/
def Future (calls : List CategoryCall) : Prop :=
  ∀ a, .add a ∈ calls → a.now < a.cooldownEnd ∧ a.now < a.categoryEnd

theorem run_tracks {calls : List CategoryCall} (mono : calls.Pairwise fun x y => x.now ≤ y.now)
    (future : Future calls) (lasts : Admitted step Lasts {} calls) :
    Yields (run step {} calls) (Tracks calls) := by
  refine run_tracks_of_admitted (fun past call h hpast ht hlasts => ?_) tracks_nil lasts
  have hnow := lastUpdate_le (mono.sublist hpast.sublist)
  cases call with
  | add a =>
    have hmem : .add a ∈ calls := hpast.subset (by simp)
    exact .ok (ht.add hlasts hnow (future a hmem).2)
  | update now => exact ht.update hlasts hnow

/-- **A category is on cooldown as long as an end that was set for it**, in a run of calls that meet
their condition: a spell of the category without an entry of its own has a cooldown just if some call
set an end that the last `Update` had not passed. -/
theorem hasCooldown_iff_inForce (env : Env) {calls : List CategoryCall}
    (mono : calls.Pairwise fun x y => x.now ≤ y.now) (future : Future calls)
    (lasts : Admitted step Lasts {} calls) :
    Yields (run step {} calls) fun h => ∀ spellInfo itemId,
      h.spellCooldowns.lookup spellInfo.id = none →
      (env.getCooldownDurations spellInfo itemId).categoryId ≠ 0 →
      (h.hasCooldown env spellInfo itemId false = true ↔
        InForce calls (env.getCooldownDurations spellInfo itemId).categoryId) := by
  refine (run_tracks mono future lasts).mono fun h ht spellInfo itemId hown hc => ?_
  rw [← ht.isSome_iff hc, SpellHistory.hasCooldown, hown]
  simp only [Option.isSome_none, Bool.false_eq_true, if_false, if_neg hc]

/-! ## Two potions of one category -/

/-- A call for the category 4, in force until `categoryEnd`. -/
def drink (now spellId cooldownEnd categoryEnd : ℕ) : CategoryCall :=
  .add ⟨now, spellId, 0, cooldownEnd, 4, categoryEnd, false⟩

/-- A spell of the category 4. -/
def potion : SpellInfo := { SpellHistory.shock with id := 3, category := 4 }

theorem hasCooldown_iff_inForce_drinks :
    Yields (run step {} [drink 0 1 30 30, drink 5 2 40 40, .update 20]) fun h =>
      ∀ spellInfo itemId, h.spellCooldowns.lookup spellInfo.id = none →
        (SpellHistory.shockStore.getCooldownDurations spellInfo itemId).categoryId ≠ 0 →
        (h.hasCooldown SpellHistory.shockStore spellInfo itemId false = true ↔
          InForce [drink 0 1 30 30, drink 5 2 40 40, .update 20]
            (SpellHistory.shockStore.getCooldownDurations spellInfo itemId).categoryId) := by
  refine hasCooldown_iff_inForce SpellHistory.shockStore (by simp [now, drink]) ?_ ?_
  · intro a ha
    simp only [drink, List.mem_cons, add.injEq, reduceCtorEq, List.not_mem_nil, or_false] at ha
    obtain rfl | rfl := ha <;> exact ⟨by decide, by decide⟩
  · exact ⟨by decide, by decide, by decide, trivial⟩

/-- The category ends with the spell's own cooldown, although it was set to last until 100. -/
theorem category_ends_early :
    Yields (run step {} [drink 0 1 10 100, .update 20]) fun h =>
      h.spellCooldowns.lookup potion.id = none ∧
        h.hasCooldown SpellHistory.shockStore potion 0 false = false ∧
        InForce [drink 0 1 10 100, .update 20] potion.category :=
  ⟨_, rfl, rfl, rfl, ⟨0, 1, 0, 10, 4, 100, false⟩, by simp [drink], rfl, by decide⟩

end CategoryCall

end Sunstrider.Spells
