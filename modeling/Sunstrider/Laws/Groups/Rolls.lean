import Sunstrider.Groups.Roll
import Sunstrider.Lib.Run

/-!
# When a loot roll is counted and closed

The totals of a roll are those of its votes, and it waits for a vote, as long as it is pending; a roll
that was counted waits for none; and a vote that was given is not changed. `counted_iff_admits` names
the runs in which all this holds: nobody votes twice, no removed member is the last one a roll waits
for, and no roll starts in which everybody passes automatically.
-/

namespace Sunstrider.Groups

open Lib (AllAlong incU8 incU8_eq decU8 decU8_eq replaceKey removeKey mem_replaceKey mem_removeKey
  map_key_replaceKey)

variable {guid : ℕ}

namespace Roll

/-! ## The votes of a roll -/

/-- How many entries have the vote. -/
def votes (r : Roll) (vote : RollVote) : ℕ := r.playerVote.countP fun e => e.2 = vote

/-- The totals are the numbers of the entries. -/
structure Tallied (r : Roll) : Prop where
  need : r.totalNeed = r.votes .need
  greed : r.totalGreed = r.votes .greed
  pass : r.totalPass = r.votes .pass
  rolling : r.totalPlayersRolling = r.playerVote.length

/-- A vote is still missing. -/
def Open (r : Roll) : Prop := ∃ e ∈ r.playerVote, e.2 = .notEmitedYet

instance : DecidablePred Open := fun r =>
  inferInstanceAs (Decidable (∃ e ∈ r.playerVote, e.2 = RollVote.notEmitedYet))

instance : DecidablePred Tallied := fun r =>
  decidable_of_iff (r.totalNeed = r.votes .need ∧ r.totalGreed = r.votes .greed ∧
      r.totalPass = r.votes .pass ∧ r.totalPlayersRolling = r.playerVote.length)
    ⟨fun ⟨hn, hg, hp, hr⟩ => ⟨hn, hg, hp, hr⟩, fun h => ⟨h.need, h.greed, h.pass, h.rolling⟩⟩

/-- A roll with one entry for each of its players, and the right totals. -/
structure Kept (r : Roll) : Prop extends Tallied r where
  keys : (r.playerVote.map Prod.fst).Nodup
  size : r.playerVote.length ≤ maxRaidSize
  valid : ∀ e ∈ r.playerVote, e.2 ≠ .notValid

theorem open_iff_votes {r : Roll} : r.Open ↔ 0 < r.votes .notEmitedYet := by
  rw [votes, List.countP_pos_iff]
  simp only [Open, decide_eq_true_eq]

theorem votes_le_size (r : Roll) (vote : RollVote) : r.votes vote ≤ r.playerVote.length :=
  List.countP_le_length

theorem votes_sum {r : Roll} (h : ∀ e ∈ r.playerVote, e.2 ≠ .notValid) :
    r.votes .pass + r.votes .need + r.votes .greed + r.votes .notEmitedYet =
      r.playerVote.length := by
  unfold votes
  generalize r.playerVote = entries at h
  induction entries with
  | nil => rfl
  | cons e l ih =>
    have hrest := ih fun e he => h e (List.mem_cons_of_mem _ he)
    have hne := h e List.mem_cons_self
    simp only [List.countP_cons, List.length_cons]
    cases he : e.2 with
    | notValid => exact absurd he hne
    | pass | need | greed | notEmitedYet => simp; omega

theorem voteOf_spec {r : Roll} {e : ℕ × RollVote} (h : r.voteOf guid = some e) :
    e ∈ r.playerVote ∧ e.1 = guid := Lib.find_spec h

theorem voteOf_eq_none {r : Roll} : r.voteOf guid = none ↔ ∀ e ∈ r.playerVote, e.1 ≠ guid := by
  simp only [voteOf, List.find?_eq_none, decide_eq_true_eq, ne_eq]

theorem voteOf_of_mem {r : Roll} {e : ℕ × RollVote} (hkeys : (r.playerVote.map Prod.fst).Nodup)
    (he : e ∈ r.playerVote) : r.voteOf e.1 = some e := by
  cases hv : r.voteOf e.1 with
  | none => exact absurd rfl (voteOf_eq_none.mp hv e he)
  | some e' =>
    obtain ⟨hmem, hkey⟩ := voteOf_spec hv
    rw [Lib.eq_of_key hkeys hmem he hkey]

/-! ## One vote -/

/-- A roll after the vote of one player, who had an entry. -/
structure Cast (r r' : Roll) (guid : ℕ) (vote : RollVote) : Prop where
  given : vote ≠ .notEmitedYet ∧ vote ≠ .notValid
  itemGUID : r'.itemGUID = r.itemGUID
  entries : r'.playerVote = replaceKey Prod.fst (guid, vote) r.playerVote
  need : r'.totalNeed = r.totalNeed + if vote = .need then 1 else 0
  greed : r'.totalGreed = r.totalGreed + if vote = .greed then 1 else 0
  pass : r'.totalPass = r.totalPass + if vote = .pass then 1 else 0
  rolling : r'.totalPlayersRolling = r.totalPlayersRolling

/-- `CountRollVote` writes the vote and adds it to one of the totals, whatever the entry was. -/
theorem cast_castVote {r : Roll} {e : ℕ × RollVote} {choice : ℕ} (h : r.Kept)
    (he : e ∈ r.playerVote) (hc : choice < maxRollType) :
    ∃ vote, Cast r (r.castVote e.1 choice) e.1 vote := by
  have hset : ∀ vote, r.setVote e.1 vote =
      { r with playerVote := replaceKey Prod.fst (e.1, vote) r.playerVote } := fun vote => by
    rw [setVote, voteOf_of_mem h.keys he]
    rfl
  have hsmall : ∀ vote, incU8 (r.votes vote) = r.votes vote + 1 := fun vote => by
    have hle := r.votes_le_size vote
    have hsize := h.size
    have hmax : maxRaidSize = 40 := rfl
    exact incU8_eq (by omega)
  match choice, hc with
  | 0, _ =>
    refine ⟨.pass, by simp, ?_, ?_, ?_, ?_, ?_, ?_⟩ <;> simp only [castVote, hset]
    · exact (Nat.add_zero _).symm
    · exact (Nat.add_zero _).symm
    · rw [h.pass, hsmall]
      rfl
  | 1, _ =>
    refine ⟨.need, by simp, ?_, ?_, ?_, ?_, ?_, ?_⟩ <;> simp only [castVote, hset]
    · rw [h.need, hsmall]
      rfl
    · exact (Nat.add_zero _).symm
    · exact (Nat.add_zero _).symm
  | 2, _ =>
    refine ⟨.greed, by simp, ?_, ?_, ?_, ?_, ?_, ?_⟩ <;> simp only [castVote, hset]
    · exact (Nat.add_zero _).symm
    · rw [h.greed, hsmall]
      rfl
    · exact (Nat.add_zero _).symm

namespace Cast

variable {r r' : Roll} {e : ℕ × RollVote} {vote : RollVote}

section

variable (c : Cast r r' e.1 vote)

include c

theorem votes (h : r.Kept) (he : e ∈ r.playerVote) (w : RollVote) :
    r'.votes w + (if e.2 = w then 1 else 0) = r.votes w + if vote = w then 1 else 0 := by
  have hsame : (e.1, vote).1 = e.1 := rfl
  have hcount := Lib.countP_replaceKey (fun e => decide (e.2 = w)) h.keys he hsame
  simp only [decide_eq_true_eq] at hcount
  rw [Roll.votes, c.entries]
  exact hcount

theorem length : r'.playerVote.length = r.playerVote.length := by
  rw [c.entries, replaceKey, List.length_map]

theorem keys (h : r.Kept) : (r'.playerVote.map Prod.fst).Nodup := by
  rw [c.entries, map_key_replaceKey]
  exact h.keys

theorem valid (h : r.Kept) : ∀ e ∈ r'.playerVote, e.2 ≠ .notValid := by
  intro e he
  rw [c.entries] at he
  rcases mem_replaceKey he with rfl | ⟨he, -⟩
  · exact c.given.2
  · exact h.valid e he

/-- A first vote is one more of its kind, and one less that is missing. -/
theorem votes_first (h : r.Kept) (he : e ∈ r.playerVote)
    (hfirst : e.2 = .notEmitedYet) {w : RollVote} (hw : w ≠ .notEmitedYet) :
    r'.votes w = r.votes w + if vote = w then 1 else 0 := by
  have hv := c.votes h he w
  rwa [hfirst, if_neg hw.symm, Nat.add_zero] at hv

theorem kept (h : r.Kept) (he : e ∈ r.playerVote) (hfirst : e.2 = .notEmitedYet) : r'.Kept := by
  have hv : ∀ {w}, w ≠ .notEmitedYet → r'.votes w = r.votes w + if vote = w then 1 else 0 :=
    c.votes_first h he hfirst
  refine { keys := c.keys h, valid := c.valid h, size := ?_, need := ?_, greed := ?_, pass := ?_,
           rolling := ?_ }
  · rw [c.need, h.need, hv (by simp)]
  · rw [c.greed, h.greed, hv (by simp)]
  · rw [c.pass, h.pass, hv (by simp)]
  · rw [c.rolling, h.rolling, c.length]
  · rw [c.length]
    exact h.size

theorem sum : r'.totalPass + r'.totalNeed + r'.totalGreed =
      r.totalPass + r.totalNeed + r.totalGreed + 1 := by
  have hgiven := c.given
  rw [c.pass, c.need, c.greed]
  cases hvote : vote with
  | pass | need | greed => simp; omega
  | notEmitedYet | notValid => simp [hvote] at hgiven

theorem not_tallied_of_again (h : r.Kept) (he : e ∈ r.playerVote)
    (hagain : e.2 ≠ .notEmitedYet) : ¬ r'.Tallied := by
  intro ht
  have hopen := c.votes h he .notEmitedYet
  rw [if_neg hagain, if_neg c.given.1] at hopen
  have hsum := votes_sum (c.valid h)
  have hsum' := votes_sum h.valid
  have hgrow := c.sum
  rw [ht.pass, ht.need, ht.greed, h.pass, h.need, h.greed] at hgrow
  have hlength := c.length
  omega

theorem open_of_again (h : r.Kept) (he : e ∈ r.playerVote)
    (hagain : e.2 ≠ .notEmitedYet) (hopen : r.Open) : r'.Open := by
  have hv := c.votes h he .notEmitedYet
  rw [if_neg hagain, if_neg c.given.1] at hv
  rw [open_iff_votes] at hopen ⊢
  omega

end

end Cast

/-- A roll whose totals are right waits for a vote just if they do not add up to its players. -/
theorem Kept.open_iff {r : Roll} (h : r.Kept) :
    r.Open ↔ ¬ r.totalPlayersRolling ≤ r.totalPass + r.totalNeed + r.totalGreed := by
  have hsum := votes_sum h.valid
  rw [open_iff_votes, h.pass, h.need, h.greed, h.rolling]
  omega

/-! ## The vote of a member who leaves -/

/-- What the loop of `RemoveMember` makes of a roll. -/
def leave (guid : ℕ) (r : Roll) : Roll :=
  match r.voteOf guid with
  | none => r
  | some e => r.dropVote guid e.2

@[simp] theorem leave_itemGUID (guid : ℕ) (r : Roll) : (r.leave guid).itemGUID = r.itemGUID := by
  unfold leave
  split <;> rfl

theorem mem_leave {r : Roll} {e : ℕ × RollVote} :
    e ∈ (r.leave guid).playerVote ↔ e ∈ r.playerVote ∧ e.1 ≠ guid := by
  unfold leave
  split
  · next hnone =>
    have hne := voteOf_eq_none.mp hnone
    exact ⟨fun he => ⟨he, hne e he⟩, fun he => he.1⟩
  · exact mem_removeKey

theorem voteOf_leave (guid : ℕ) (r : Roll) : (r.leave guid).voteOf guid = none :=
  voteOf_eq_none.mpr fun _ he => (mem_leave.mp he).2

theorem Kept.dropVote {r : Roll} {e : ℕ × RollVote} (h : r.Kept) (he : e ∈ r.playerVote) :
    (r.dropVote e.1 e.2).Kept := by
  have hvotes : ∀ w, (r.dropVote e.1 e.2).votes w + (if e.2 = w then 1 else 0) = r.votes w :=
    fun w => by
      have hcount := Lib.countP_removeKey (fun e => decide (e.2 = w)) h.keys he
      simp only [decide_eq_true_eq] at hcount
      exact hcount
  have hlength : (r.dropVote e.1 e.2).playerVote.length + 1 = r.playerVote.length :=
    Lib.length_removeKey h.keys he
  have hsize := h.size
  -- the total of the vote goes down by one, and the others stay
  have htotal : ∀ {w total}, total = r.votes w →
      (if e.2 = w then decU8 total else total) = (r.dropVote e.1 e.2).votes w := by
    intro w total ht
    have hw := hvotes w
    have hle := r.votes_le_size w
    have hmax : maxRaidSize = 40 := rfl
    split
    next heq =>
      rw [if_pos heq] at hw
      rw [ht, ← hw, decU8_eq (by omega)]
    next hne =>
      rw [if_neg hne] at hw
      rw [ht, ← hw, Nat.add_zero]
  refine { keys := Lib.nodup_removeKey h.keys, size := by omega, valid := ?_, need := htotal h.need,
           greed := htotal h.greed, pass := htotal h.pass, rolling := ?_ }
  · have hmax : maxRaidSize = 40 := rfl
    show (if e.2 ≠ .notValid then decU8 r.totalPlayersRolling else r.totalPlayersRolling) = _
    rw [if_pos (h.valid e he), h.rolling, ← hlength, decU8_eq (by omega)]
  · intro e' he'
    exact h.valid e' (mem_removeKey.mp he').1

theorem Kept.leave {r : Roll} (h : r.Kept) (guid : ℕ) : (r.leave guid).Kept := by
  unfold Roll.leave
  split
  · exact h
  · next e hv =>
    obtain ⟨he, rfl⟩ := voteOf_spec hv
    exact h.dropVote he

/-! ## A roll that is started -/

/-- The entry a player begins with. -/
def firstVote (autoPass : Bool) (m : Candidate) : RollVote :=
  if autoPass && m.passOnGroupLoot then .pass else .notEmitedYet

theorem setVote_of_fresh {r : Roll} (h : ∀ e ∈ r.playerVote, e.1 ≠ guid) (vote : RollVote) :
    r.setVote guid vote = { r with playerVote := r.playerVote ++ [(guid, vote)] } := by
  rw [setVote, voteOf_eq_none.mpr h]
  rfl

theorem addPlayer_eq {r : Roll} {m : Candidate} (autoPass : Bool)
    (h : ∀ e ∈ r.playerVote, e.1 ≠ m.guid) :
    Rolls.addPlayer autoPass r m =
      { r with
        totalPlayersRolling := incU8 r.totalPlayersRolling
        totalPass := if firstVote autoPass m = .pass then incU8 r.totalPass else r.totalPass
        playerVote := r.playerVote ++ [(m.guid, firstVote autoPass m)] } := by
  unfold Rolls.addPlayer firstVote
  have hset := setVote_of_fresh (r := { r with totalPlayersRolling := incU8 r.totalPlayersRolling }) h
  split
  · simp [hset]
  · simp [hset]

theorem Kept.addPlayer {r : Roll} {m : Candidate} (h : r.Kept) (autoPass : Bool)
    (hnew : ∀ e ∈ r.playerVote, e.1 ≠ m.guid) (hsize : r.playerVote.length < maxRaidSize) :
    (Rolls.addPlayer autoPass r m).Kept := by
  rw [addPlayer_eq autoPass hnew]
  have hmax : maxRaidSize = 40 := rfl
  have hvotes : ∀ w, (r.playerVote ++ [(m.guid, firstVote autoPass m)]).countP
      (fun e => decide (e.2 = w)) = r.votes w + if firstVote autoPass m = w then 1 else 0 :=
    fun w => by
      rw [List.countP_append, List.countP_singleton]
      simp only [decide_eq_true_eq]
      rfl
  have hvote : firstVote autoPass m = .pass ∨ firstVote autoPass m = .notEmitedYet := by
    unfold firstVote
    split
    · exact .inl rfl
    · exact .inr rfl
  have hlength : (r.playerVote ++ [(m.guid, firstVote autoPass m)]).length =
      r.playerVote.length + 1 := List.length_append
  refine { keys := ?_, size := by rw [hlength]; omega, valid := ?_, need := ?_, greed := ?_,
           pass := ?_, rolling := ?_ }
  · show r.totalNeed = _
    rw [h.need, Roll.votes, Roll.votes, hvotes]
    rcases hvote with hvote | hvote <;> rw [hvote] <;> rfl
  · show r.totalGreed = _
    rw [h.greed, Roll.votes, Roll.votes, hvotes]
    rcases hvote with hvote | hvote <;> rw [hvote] <;> rfl
  · have hle := r.votes_le_size .pass
    show (if firstVote autoPass m = .pass then incU8 r.totalPass else r.totalPass) = _
    rw [h.pass, incU8_eq (by omega), Roll.votes, Roll.votes, hvotes]
    split <;> rfl
  · show incU8 r.totalPlayersRolling = _
    rw [h.rolling, incU8_eq (by omega), hlength]
  · rw [List.map_append, List.nodup_append']
    refine ⟨h.keys, List.nodup_singleton _, ?_⟩
    rw [List.map_singleton, List.disjoint_singleton]
    intro hmem
    obtain ⟨e, he, heq⟩ := List.mem_map.mp hmem
    exact hnew e he heq
  · intro e he
    rcases List.mem_append.mp he with he | he
    · exact h.valid e he
    · rw [List.mem_singleton.mp he]
      rcases hvote with hvote | hvote <;> simp [hvote]

theorem Kept.addPlayers (autoPass : Bool) (l : List Candidate) {r : Roll} (h : r.Kept)
    (hl : (l.map Candidate.guid).Nodup) (hnew : ∀ m ∈ l, ∀ e ∈ r.playerVote, e.1 ≠ m.guid)
    (hsize : r.playerVote.length + l.length ≤ maxRaidSize) :
    (l.foldl (Rolls.addPlayer autoPass) r).Kept ∧
      (l.foldl (Rolls.addPlayer autoPass) r).itemGUID = r.itemGUID ∧
      (l.foldl (Rolls.addPlayer autoPass) r).playerVote =
        r.playerVote ++ l.map fun m => (m.guid, firstVote autoPass m) := by
  induction l generalizing r with
  | nil => exact ⟨h, rfl, (List.append_nil _).symm⟩
  | cons m l ih =>
    rw [List.map_cons, List.nodup_cons] at hl
    rw [List.length_cons] at hsize
    have hm := hnew m List.mem_cons_self
    have heq := addPlayer_eq autoPass hm
    have hentries : (Rolls.addPlayer autoPass r m).playerVote =
        r.playerVote ++ [(m.guid, firstVote autoPass m)] := by rw [heq]
    obtain ⟨hkept, hguid, hvotes⟩ := ih (h.addPlayer autoPass hm (by omega)) hl.2
      (fun m' hm' e he => by
        rw [hentries] at he
        rcases List.mem_append.mp he with he | he
        · exact hnew m' (List.mem_cons_of_mem m hm') e he
        · rw [List.mem_singleton.mp he]
          exact fun hguid => hl.1 (List.mem_map.mpr ⟨m', hm', hguid.symm⟩))
      (by rw [hentries, List.length_append, List.length_singleton]; omega)
    refine ⟨hkept, hguid.trans (by rw [heq]), ?_⟩
    rw [List.foldl_cons, hvotes, hentries, List.append_assoc, List.map_cons]
    rfl

/-! ## The votes that were given -/

/-- A later state of a roll: no entry is new, and no vote that was given is another one now. -/
def Follows (r r' : Roll) : Prop :=
  r'.itemGUID = r.itemGUID ∧ ∀ e' ∈ r'.playerVote, ∃ e ∈ r.playerVote,
    e.1 = e'.1 ∧ (e.2 = .notEmitedYet ∨ e.2 = e'.2)

theorem Follows.refl (r : Roll) : r.Follows r := ⟨rfl, fun e he => ⟨e, he, rfl, .inr rfl⟩⟩

theorem Follows.trans {r r' r'' : Roll} (h : r.Follows r') (h' : r'.Follows r'') :
    r.Follows r'' := by
  refine ⟨h'.1.trans h.1, fun e'' he'' => ?_⟩
  obtain ⟨e', he', hkey', hvote'⟩ := h'.2 e'' he''
  obtain ⟨e, he, hkey, hvote⟩ := h.2 e' he'
  refine ⟨e, he, hkey.trans hkey', ?_⟩
  rcases hvote with hmissing | hsame
  · exact .inl hmissing
  · rcases hvote' with hmissing' | hsame'
    · exact .inl (hsame.trans hmissing')
    · exact .inr (hsame.trans hsame')

theorem follows_leave (r : Roll) (guid : ℕ) : r.Follows (r.leave guid) :=
  ⟨leave_itemGUID guid r, fun e he => ⟨e, (mem_leave.mp he).1, rfl, .inr rfl⟩⟩

theorem Cast.follows {r r' : Roll} {e : ℕ × RollVote} {vote : RollVote} (c : Cast r r' e.1 vote)
    (he : e ∈ r.playerVote) (hfirst : e.2 = .notEmitedYet) : r.Follows r' := by
  refine ⟨c.itemGUID, fun e' he' => ?_⟩
  rw [c.entries] at he'
  rcases mem_replaceKey he' with rfl | ⟨he', -⟩
  · exact ⟨e, he, rfl, .inl hfirst⟩
  · exact ⟨e', he', rfl, .inr rfl⟩

end Roll

namespace Rolls

/-! ## Rolls that are counted right -/

/-- The rolls that were ever started. -/
def all (s : Rolls) : List Roll := s.rollId ++ s.resolved

/-- Pending rolls are counted and wait for a vote, and the others wait for none. -/
structure Counted (s : Rolls) : Prop where
  tallied : ∀ r ∈ s.rollId, r.Tallied
  waiting : ∀ r ∈ s.rollId, r.Open
  closed : ∀ r ∈ s.resolved, ¬ r.Open

instance : DecidablePred Counted := fun s =>
  decidable_of_iff ((∀ r ∈ s.rollId, r.Tallied ∧ r.Open) ∧ ∀ r ∈ s.resolved, ¬ r.Open)
    ⟨fun ⟨hp, hr⟩ => ⟨fun r h => (hp r h).1, fun r h => (hp r h).2, hr⟩,
      fun h => ⟨fun r hr => ⟨h.tallied r hr, h.waiting r hr⟩, h.closed⟩⟩

/-- No vote that was given in `s` is another one in `t`. -/
def VotesFinal (s t : Rolls) : Prop :=
  ∀ r ∈ s.all, ∀ r' ∈ t.all, r'.itemGUID = r.itemGUID →
    ∀ e ∈ r.playerVote, e.2 ≠ .notEmitedYet → ∀ e' ∈ r'.playerVote, e'.1 = e.1 → e' = e

/-- The steps that do not meet one of the three gaps: a vote that is counted finds an entry that waits
for it, a member who leaves is not the only one a roll waits for, and of the players of a new roll one
does not pass automatically. -/
def Admits (s : Rolls) : Op → Prop
  | .start kind _ party =>
    (∀ m ∈ party.members, ¬ (m.hasSession && kind.eligible m)) ∨
      ∃ m ∈ party.members, (m.hasSession && kind.eligible m) ∧ ¬ (kind.autoPass && m.passOnGroupLoot)
  | .vote playerGUID guid rollType =>
    rollType < maxRollType → ∀ r ∈ s.getRoll guid, (∀ loot ∈ r.loot, loot.items ≠ 0) →
      ∀ e ∈ r.voteOf playerGUID, e.2 = .notEmitedYet
  | .remove guid =>
    ∀ r ∈ s.rollId, (r.voteOf guid).isSome → ∃ e ∈ r.playerVote, e.1 ≠ guid ∧ e.2 = .notEmitedYet
  | .lootChanges _ _ => True

/-- What every step keeps besides. -/
structure Regular (s : Rolls) : Prop extends Counted s where
  kept : ∀ r ∈ s.all, r.Kept
  guids : (s.all.map Roll.itemGUID).Nodup
  fresh : ∀ r ∈ s.all, r.itemGUID < s.nextItemGuid

/-- Every roll is still there, later in its life. -/
def Follows (s t : Rolls) : Prop := ∀ r ∈ s.all, ∃ r' ∈ t.all, r.Follows r'

theorem Follows.refl (s : Rolls) : s.Follows s := fun r hr => ⟨r, hr, .refl r⟩

theorem Follows.trans (s t u : Rolls) (h : s.Follows t) (h' : t.Follows u) : s.Follows u := by
  intro r hr
  obtain ⟨r', hr', hf⟩ := h r hr
  obtain ⟨r'', hr'', hf'⟩ := h' r' hr'
  exact ⟨r'', hr'', hf.trans hf'⟩

theorem Follows.votesFinal {s t : Rolls} (h : s.Follows t) (hs : s.Regular) (ht : t.Regular) :
    VotesFinal s t := by
  intro r hr r' hr' hguid e he hgiven e' he' hkey
  obtain ⟨r'', hr'', hf⟩ := h r hr
  -- the guid of a roll is its own, and in a roll a player has one entry
  obtain rfl := Lib.eq_of_key ht.guids hr' hr'' (hguid.trans hf.1.symm)
  obtain ⟨e₀, he₀, hkey₀, hvote⟩ := hf.2 e' he'
  obtain rfl := Lib.eq_of_key (hs.kept r hr).keys he he₀ (hkey.symm.trans hkey₀.symm)
  rcases hvote with hmissing | hsame
  · exact absurd hmissing hgiven
  · exact Prod.ext hkey hsame.symm

variable {s : Rolls}

/-! ## A roll is started -/

/-- The members who roll. -/
def players (party : Party) (eligible : Candidate → Bool) : List Candidate :=
  party.members.filter fun m => m.hasSession && eligible m

/-- The roll between the members who roll. -/
def newRoll (guid : ℕ) (party : Party) (eligible : Candidate → Bool) (autoPass : Bool) : Roll :=
  (players party eligible).foldl (addPlayer autoPass) (Roll.new guid)

theorem newRoll_spec (guid : ℕ) (party : Party) (eligible : Candidate → Bool) (autoPass : Bool) :
    (newRoll guid party eligible autoPass).Kept ∧
      (newRoll guid party eligible autoPass).itemGUID = guid ∧
      (newRoll guid party eligible autoPass).playerVote =
        (players party eligible).map fun m => (m.guid, Roll.firstVote autoPass m) := by
  have hsub : List.Sublist (players party eligible) party.members := List.filter_sublist
  have hnew : (Roll.new guid).Kept :=
    { keys := List.nodup_nil, size := Nat.zero_le _, valid := fun _ he => (nomatch he), need := rfl,
      greed := rfl, pass := rfl, rolling := rfl }
  refine hnew.addPlayers autoPass (players party eligible) (party.nodup.sublist (hsub.map _)) ?_ ?_
  · exact fun _ _ _ he => (nomatch he)
  · rw [show (Roll.new guid).playerVote.length = 0 from rfl, Nat.zero_add]
    exact hsub.length_le.trans party.size

theorem startRoll_eq (s : Rolls) (loot : Loot) (party : Party) (eligible : Candidate → Bool)
    (autoPass : Bool) :
    s.startRoll loot party eligible autoPass =
      if players party eligible = [] then { s with nextItemGuid := s.nextItemGuid + 1 }
      else
        { s with
          nextItemGuid := s.nextItemGuid + 1
          rollId := s.rollId ++
            [{ newRoll s.nextItemGuid party eligible autoPass with loot := some loot }] } := by
  obtain ⟨hkept, -, hentries⟩ := newRoll_spec s.nextItemGuid party eligible autoPass
  have hrolling := hkept.rolling
  rw [hentries, List.length_map] at hrolling
  show (if 0 < (newRoll s.nextItemGuid party eligible autoPass).totalPlayersRolling then _ else _) = _
  rw [hrolling]
  by_cases hnil : players party eligible = []
  · rw [if_pos hnil, if_neg (by simp [hnil])]
  · rw [if_neg hnil, if_pos (List.length_pos_iff.mpr hnil)]
    rfl

theorem newRoll_open_iff (guid : ℕ) (party : Party) (eligible : Candidate → Bool)
    (autoPass : Bool) :
    (newRoll guid party eligible autoPass).Open ↔
      ∃ m ∈ party.members, (m.hasSession && eligible m) ∧ ¬ (autoPass && m.passOnGroupLoot) := by
  obtain ⟨-, -, hentries⟩ := newRoll_spec guid party eligible autoPass
  have hvote : ∀ m, Roll.firstVote autoPass m = .notEmitedYet ↔
      ¬ (autoPass && m.passOnGroupLoot) := fun m => by
    unfold Roll.firstVote
    split <;> simp [*]
  have hmem : ∀ m, m ∈ players party eligible ↔ m ∈ party.members ∧ (m.hasSession && eligible m) :=
    fun m => List.mem_filter
  rw [Roll.Open, hentries]
  constructor
  · rintro ⟨e, he, hopen⟩
    obtain ⟨m, hm, rfl⟩ := List.mem_map.mp he
    obtain ⟨hm, hwho⟩ := (hmem m).mp hm
    exact ⟨m, hm, hwho, (hvote m).mp hopen⟩
  · rintro ⟨m, hm, hwho, hpass⟩
    exact ⟨_, List.mem_map_of_mem ((hmem m).mpr ⟨hm, hwho⟩), (hvote m).mpr hpass⟩

theorem Regular.push {r : Roll} (h : Regular s) (hr : r.Kept) (hopen : r.Open)
    (hguid : r.itemGUID = s.nextItemGuid) :
    Regular { s with nextItemGuid := s.nextItemGuid + 1, rollId := s.rollId ++ [r] } := by
  -- the new roll is one more among the old ones
  have hall : ∀ r' ∈ all { s with nextItemGuid := s.nextItemGuid + 1, rollId := s.rollId ++ [r] },
      r' ∈ s.all ∨ r' = r := by
    intro r' hr'
    simp only [all, List.append_assoc, List.singleton_append, List.mem_append, List.mem_cons] at hr'
    simp only [all, List.mem_append]
    tauto
  have hmem : ∀ r' ∈ s.rollId ++ [r], r' ∈ s.rollId ∨ r' = r := by
    intro r' hr'
    simpa using hr'
  refine { closed := h.closed, tallied := ?_, waiting := ?_, kept := ?_, guids := ?_, fresh := ?_ }
  · intro r' hr'
    rcases hmem r' hr' with hold | rfl
    · exact h.tallied r' hold
    · exact hr.toTallied
  · intro r' hr'
    rcases hmem r' hr' with hold | rfl
    · exact h.waiting r' hold
    · exact hopen
  · intro r' hr'
    rcases hall r' hr' with hold | rfl
    · exact h.kept r' hold
    · exact hr
  · -- every guid there is comes before the one of the new roll
    have hnew : s.nextItemGuid ∉ s.all.map Roll.itemGUID := by
      intro hin
      obtain ⟨r', hr', heq⟩ := List.mem_map.mp hin
      exact absurd (h.fresh r' hr') (by omega)
    have hguids := h.guids
    simp only [all, List.map_append, List.map_cons, List.map_nil, hguid] at hguids hnew ⊢
    rw [List.append_assoc, List.singleton_append]
    exact List.nodup_middle.mpr (List.nodup_cons.mpr ⟨hnew, hguids⟩)
  · intro r' hr'
    rcases hall r' hr' with hold | rfl
    · exact Nat.lt_succ_of_lt (h.fresh r' hold)
    · exact hguid ▸ Nat.lt_succ_self _

theorem Regular.next (h : Regular s) : Regular { s with nextItemGuid := s.nextItemGuid + 1 } :=
  { h with fresh := fun r hr => Nat.lt_succ_of_lt (h.fresh r hr) }

theorem follows_start (s : Rolls) (loot : Loot) (party : Party) (eligible : Candidate → Bool)
    (autoPass : Bool) : s.Follows (s.startRoll loot party eligible autoPass) := by
  rw [startRoll_eq]
  intro r hr
  refine ⟨r, ?_, .refl r⟩
  split
  · exact hr
  · simp only [all, List.mem_append] at hr ⊢
    tauto

theorem Regular.start {kind : RollKind} {party : Party} {loot : Loot} (h : Regular s)
    (hop : Admits s (.start kind loot party)) : Regular (s.start kind loot party) := by
  obtain ⟨hkept, hguid, -⟩ := newRoll_spec s.nextItemGuid party kind.eligible kind.autoPass
  rw [Rolls.start, startRoll_eq]
  split
  · exact h.next
  · next hsome =>
    have hopen : ∃ m ∈ party.members,
        (m.hasSession && kind.eligible m) ∧ ¬ (kind.autoPass && m.passOnGroupLoot) := by
      rcases hop with hnone | hsomebody
      · exact absurd (List.filter_eq_nil_iff.mpr hnone) hsome
      · exact hsomebody
    exact h.push { hkept with } ((newRoll_open_iff _ _ _ _).mpr hopen) hguid

/-- Where everybody who rolls passes automatically, the roll waits for nobody. -/
theorem admits_of_start {kind : RollKind} {party : Party} {loot : Loot}
    (h : Counted (s.start kind loot party)) : Admits s (.start kind loot party) := by
  rw [Rolls.start, startRoll_eq] at h
  split at h
  · next hnil => exact .inl (List.filter_eq_nil_iff.mp hnil)
  · have hopen := h.waiting _ (List.mem_append_right _ (List.mem_singleton_self _))
    exact .inr ((newRoll_open_iff _ _ _ _).mp hopen)

/-! ## A roll is changed -/

theorem Regular.replace {r r' : Roll} (h : Regular s) (hr : r ∈ s.rollId) (hf : r.Follows r')
    (hkept : r'.Kept) (hopen : r'.Open) :
    Regular { s with rollId := replaceKey Roll.itemGUID r' s.rollId } := by
  have hmem : ∀ b ∈ replaceKey Roll.itemGUID r' s.rollId, b = r' ∨ b ∈ s.rollId := by
    intro b hb
    rcases mem_replaceKey hb with rfl | ⟨hb, -⟩
    · exact .inl rfl
    · exact .inr hb
  refine { closed := h.closed, tallied := ?_, waiting := ?_, kept := ?_, guids := ?_, fresh := ?_ }
  · intro b hb
    rcases hmem b hb with rfl | hb
    · exact hkept.toTallied
    · exact h.tallied b hb
  · intro b hb
    rcases hmem b hb with rfl | hb
    · exact hopen
    · exact h.waiting b hb
  · intro b hb
    rcases List.mem_append.mp hb with hb | hb
    · rcases hmem b hb with rfl | hb
      · exact hkept
      · exact h.kept b (List.mem_append_left _ hb)
    · exact h.kept b (List.mem_append_right _ hb)
  · have hguids := h.guids
    simp only [all, List.map_append, map_key_replaceKey] at hguids ⊢
    exact hguids
  · intro b hb
    rcases List.mem_append.mp hb with hb | hb
    · rcases hmem b hb with rfl | hb
      · rw [hf.1]
        exact h.fresh r (List.mem_append_left _ hr)
      · exact h.fresh b (List.mem_append_left _ hb)
    · exact h.fresh b (List.mem_append_right _ hb)

theorem follows_replace {r r' : Roll} (h : Regular s) (hr : r ∈ s.rollId) (hf : r.Follows r') :
    s.Follows { s with rollId := replaceKey Roll.itemGUID r' s.rollId } := by
  intro b hb
  rcases List.mem_append.mp hb with hb | hb
  · by_cases hkey : b.itemGUID = r'.itemGUID
    · obtain rfl := Lib.eq_of_key h.guids (List.mem_append_left _ hb) (List.mem_append_left _ hr)
        (hkey.trans hf.1)
      exact ⟨r', List.mem_append_left _ (List.mem_map.mpr ⟨b, hb, if_pos hkey⟩), hf⟩
    · exact ⟨b, List.mem_append_left _ (List.mem_map.mpr ⟨b, hb, if_neg hkey⟩), .refl b⟩
  · exact ⟨b, List.mem_append_right _ hb, .refl b⟩

theorem Regular.close {r r' : Roll} (h : Regular s) (hr : r ∈ s.rollId) (hf : r.Follows r')
    (hkept : r'.Kept) (hclosed : ¬ r'.Open) :
    Regular ({ s with rollId := replaceKey Roll.itemGUID r' s.rollId }.countTheRoll r') := by
  rw [countTheRoll, Lib.removeKey_replaceKey]
  have hmem : ∀ b ∈ removeKey Roll.itemGUID r'.itemGUID s.rollId ++ (s.resolved ++ [r']),
      b ∈ s.all ∨ b = r' := by
    intro b hb
    simp only [List.mem_append, mem_removeKey, List.mem_singleton] at hb
    simp only [all, List.mem_append]
    tauto
  refine { tallied := ?_, waiting := ?_, closed := ?_, kept := ?_, guids := ?_, fresh := ?_ }
  · exact fun b hb => h.tallied b (mem_removeKey.mp hb).1
  · exact fun b hb => h.waiting b (mem_removeKey.mp hb).1
  · intro b hb
    rcases List.mem_append.mp hb with hb | hb
    · exact h.closed b hb
    · rw [List.mem_singleton.mp hb]
      exact hclosed
  · intro b hb
    rcases hmem b hb with hb | rfl
    · exact h.kept b hb
    · exact hkept
  · have hguids := h.guids
    simp only [all, List.map_append] at hguids ⊢
    obtain ⟨hpending, hresolved, hdisj⟩ := List.nodup_append'.mp hguids
    rw [List.map_singleton, ← List.append_assoc, List.nodup_append']
    refine ⟨?_, List.nodup_singleton _, ?_⟩
    · refine List.nodup_append'.mpr ⟨Lib.nodup_removeKey hpending, hresolved, ?_⟩
      exact List.disjoint_of_subset_left (List.map_subset _ (List.filter_subset_self _)) hdisj
    · -- the guid of the closed roll was taken out of the pending ones, and not closed before
      rw [List.disjoint_singleton, List.mem_append]
      rintro (hin | hin)
      · obtain ⟨b, hb, heq⟩ := List.mem_map.mp hin
        exact (mem_removeKey.mp hb).2 heq
      · exact hdisj (List.mem_map_of_mem hr) (hf.1 ▸ hin)
  · intro b hb
    rcases hmem b hb with hb | rfl
    · exact h.fresh b hb
    · rw [hf.1]
      exact h.fresh r (List.mem_append_left _ hr)

theorem follows_close {r r' : Roll} (h : Regular s) (hr : r ∈ s.rollId) (hf : r.Follows r') :
    s.Follows ({ s with rollId := replaceKey Roll.itemGUID r' s.rollId }.countTheRoll r') := by
  rw [countTheRoll, Lib.removeKey_replaceKey]
  intro b hb
  rcases List.mem_append.mp hb with hb | hb
  · by_cases hkey : b.itemGUID = r'.itemGUID
    · obtain rfl := Lib.eq_of_key h.guids (List.mem_append_left _ hb) (List.mem_append_left _ hr)
        (hkey.trans hf.1)
      refine ⟨r', ?_, hf⟩
      simp [all]
    · exact ⟨b, List.mem_append_left _ (mem_removeKey.mpr ⟨hb, hkey⟩), .refl b⟩
  · exact ⟨b, List.mem_append_right _ (List.mem_append_left _ hb), .refl b⟩

/-! ## A vote -/

/-- What a vote comes to, where it is counted. -/
def voted (s : Rolls) (r : Roll) : Rolls :=
  if r.totalPlayersRolling ≤ r.totalPass + r.totalNeed + r.totalGreed then
    { s with rollId := replaceKey Roll.itemGUID r s.rollId }.countTheRoll r
  else { s with rollId := replaceKey Roll.itemGUID r s.rollId }

theorem getRoll_spec {r : Roll} (h : s.getRoll guid = some r) :
    r ∈ s.rollId ∧ r.itemGUID = guid := by
  have hmem := List.mem_of_find?_eq_some h
  have hguid := List.find?_some h
  simp only [Bool.and_eq_true, decide_eq_true_eq] at hguid
  exact ⟨hmem, hguid.1⟩

theorem countRollVote_cases (s : Rolls) (playerGUID guid choice : ℕ) :
    (s.countRollVote playerGUID guid choice = s ∧
      ∀ r ∈ s.getRoll guid, (∀ loot ∈ r.loot, loot.items ≠ 0) → r.voteOf playerGUID = none) ∨
    ∃ r e, s.getRoll guid = some r ∧ r.voteOf playerGUID = some e ∧
      (∀ loot ∈ r.loot, loot.items ≠ 0) ∧
      s.countRollVote playerGUID guid choice = s.voted (r.castVote playerGUID choice) := by
  unfold countRollVote
  cases hget : s.getRoll guid with
  | none => exact .inl ⟨rfl, fun _ hr => (nomatch hr)⟩
  | some r =>
    cases hvote : r.voteOf playerGUID with
    | none =>
      refine .inl ⟨by simp only [hvote, Option.isNone_none, if_true], fun r' hr' _ => ?_⟩
      cases hr'
      exact hvote
    | some e =>
      have hempty : (r.loot.any fun loot => decide (loot.items = 0)) = true ↔
          ∃ loot ∈ r.loot, loot.items = 0 := by
        cases r.loot <;> simp
      by_cases hloot : ∃ loot ∈ r.loot, loot.items = 0
      · refine .inl ⟨?_, fun r' hr' hitems => ?_⟩
        · simp [hvote, hempty.mpr hloot]
        · cases hr'
          obtain ⟨loot, hl, hzero⟩ := hloot
          exact absurd hzero (hitems loot hl)
      · refine .inr ⟨r, e, rfl, hvote, fun loot hl hzero => hloot ⟨loot, hl, hzero⟩, ?_⟩
        simp only [hvote, Option.isNone_some, Bool.false_eq_true, if_false, hempty, hloot]
        rfl

variable {playerGUID : ℕ}

theorem countRollVote_of_left {choice : ℕ} (h : ∀ r ∈ s.getRoll guid, r.voteOf playerGUID = none) :
    s.countRollVote playerGUID guid choice = s := by
  rcases countRollVote_cases s playerGUID guid choice with ⟨heq, -⟩ | ⟨r, e, hget, hvote, -⟩
  · exact heq
  · rw [h r hget] at hvote
    cases hvote

/-- A first vote keeps the rolls as they should be, and closes the roll in time. -/
theorem vote_spec {rollType : ℕ} (h : Regular s) (hop : Admits s (.vote playerGUID guid rollType)) :
    Regular (s.handleLootRoll playerGUID guid rollType) ∧
      s.Follows (s.handleLootRoll playerGUID guid rollType) := by
  unfold handleLootRoll
  split
  · exact ⟨h, .refl s⟩
  · next htype =>
    rcases countRollVote_cases s playerGUID guid rollType with
      ⟨heq, -⟩ | ⟨r, e, hget, hvote, hloot, heq⟩
    · rw [heq]
      exact ⟨h, .refl s⟩
    · rw [heq]
      obtain ⟨hr, -⟩ := getRoll_spec hget
      obtain ⟨he, rfl⟩ := Roll.voteOf_spec hvote
      have hfirst := hop (Nat.lt_of_not_le htype) r hget hloot e hvote
      have hkept := h.kept r (List.mem_append_left _ hr)
      obtain ⟨vote, c⟩ := Roll.cast_castVote hkept he (Nat.lt_of_not_le htype)
      have hkept' := c.kept hkept he hfirst
      have hf := c.follows he hfirst
      unfold voted
      split
      next hsum =>
        have hclosed : ¬ (r.castVote e.1 rollType).Open := fun ho => hkept'.open_iff.mp ho hsum
        exact ⟨h.close hr hf hkept' hclosed, follows_close h hr hf⟩
      next hsum =>
        exact ⟨h.replace hr hf hkept' (hkept'.open_iff.mpr hsum), follows_replace h hr hf⟩

/-- After a second vote a pending roll has a total that is not right, and a closed one still waits for
a vote. -/
theorem admits_of_vote {rollType : ℕ} (h : Regular s)
    (hcounted : Counted (s.handleLootRoll playerGUID guid rollType)) :
    Admits s (.vote playerGUID guid rollType) := by
  intro htype r hget hloot e hvote
  by_contra hagain
  obtain ⟨hr, -⟩ := getRoll_spec hget
  rw [handleLootRoll, if_neg (Nat.not_le_of_lt htype)] at hcounted
  rcases countRollVote_cases s playerGUID guid rollType with
    ⟨-, hnone⟩ | ⟨r', e', hget', hvote', -, heq⟩
  · rw [hnone r hget hloot] at hvote
    cases hvote
  · obtain rfl : r = r' := Option.some.inj (hget.symm.trans hget')
    obtain ⟨he, rfl⟩ := Roll.voteOf_spec hvote
    have hkept := h.kept r (List.mem_append_left _ hr)
    obtain ⟨vote, c⟩ := Roll.cast_castVote hkept he htype
    rw [heq, voted] at hcounted
    split at hcounted
    · have hopen := c.open_of_again hkept he hagain (h.waiting r hr)
      refine hcounted.closed (r.castVote e.1 rollType) ?_ hopen
      exact List.mem_append_right _ (List.mem_singleton_self _)
    · refine c.not_tallied_of_again hkept he hagain (hcounted.tallied (r.castVote e.1 rollType) ?_)
      exact List.mem_map.mpr ⟨r, hr, if_pos c.itemGUID.symm⟩

/-! ## A member leaves -/

/-- The vote that `RemoveMember` counts for the member who leaves finds no entry, so it closes no
roll. -/
theorem removePlayer_eq {r : Roll} {l l' : List Roll} (h : ((l ++ r :: l').map Roll.itemGUID).Nodup)
    : removePlayer guid { s with rollId := l ++ r :: l' } r =
      { s with rollId := l ++ r.leave guid :: l' } := by
  unfold removePlayer Roll.leave
  cases hvote : r.voteOf guid with
  | none => rfl
  | some e =>
    have hleave : r.leave guid = r.dropVote guid e.2 := by rw [Roll.leave, hvote]
    have hreplace : replaceKey Roll.itemGUID (r.dropVote guid e.2) (l ++ r :: l') =
        l ++ r.dropVote guid e.2 :: l' := Lib.replaceKey_middle h rfl
    simp only [hreplace]
    refine countRollVote_of_left fun r' hget => ?_
    obtain ⟨hr', hguid⟩ := getRoll_spec hget
    have hkeys : ((l ++ r.dropVote guid e.2 :: l').map Roll.itemGUID).Nodup := by
      simp only [List.map_append, List.map_cons] at h ⊢
      exact h
    have hsame : r' = r.dropVote guid e.2 :=
      Lib.eq_of_key hkeys hr' (List.mem_append_right _ List.mem_cons_self) hguid
    rw [hsame, ← hleave]
    exact Roll.voteOf_leave guid r

theorem removeMember_eq (h : (s.rollId.map Roll.itemGUID).Nodup) (guid : ℕ) :
    s.removeMember guid = { s with rollId := s.rollId.map (Roll.leave guid) } := by
  suffices hloop : ∀ todo done : List Roll, ((done ++ todo).map Roll.itemGUID).Nodup →
      todo.foldl (removePlayer guid) { s with rollId := done.map (Roll.leave guid) ++ todo } =
        { s with rollId := (done ++ todo).map (Roll.leave guid) } from hloop s.rollId [] h
  have hkeys : ∀ l : List Roll, (l.map (Roll.leave guid)).map Roll.itemGUID =
      l.map Roll.itemGUID := fun l => by simp
  intro todo
  induction todo with
  | nil =>
    intro done _
    rw [List.foldl_nil, List.append_nil, List.append_nil]
  | cons r todo ih =>
    intro done hnodup
    have hround : ((done.map (Roll.leave guid) ++ r :: todo).map Roll.itemGUID).Nodup := by
      rwa [List.map_append, hkeys, ← List.map_append]
    rw [List.foldl_cons, removePlayer_eq hround]
    have hrest := ih (done ++ [r]) (by rwa [List.append_assoc])
    rw [List.map_append, List.map_singleton, List.append_assoc, List.append_assoc] at hrest
    exact hrest

theorem Regular.pending (h : Regular s) : (s.rollId.map Roll.itemGUID).Nodup := by
  have hguids := h.guids
  rw [all, List.map_append] at hguids
  exact hguids.of_append_left

theorem follows_remove (h : Regular s) (guid : ℕ) : s.Follows (s.removeMember guid) := by
  rw [removeMember_eq h.pending]
  intro r hr
  rcases List.mem_append.mp hr with hr | hr
  · exact ⟨r.leave guid, List.mem_append_left _ (List.mem_map_of_mem hr), Roll.follows_leave r guid⟩
  · exact ⟨r, List.mem_append_right _ hr, .refl r⟩

theorem Regular.map {f : Roll → Roll} (h : Regular s) (hguid : ∀ r, (f r).itemGUID = r.itemGUID)
    (hf : ∀ r ∈ s.rollId, (f r).Kept ∧ (f r).Open) : Regular { s with rollId := s.rollId.map f } := by
  have hmem : ∀ b ∈ all { s with rollId := s.rollId.map f },
      (∃ r ∈ s.rollId, b = f r) ∨ b ∈ s.resolved := by
    intro b hb
    rcases List.mem_append.mp hb with hb | hb
    · obtain ⟨r, hr, rfl⟩ := List.mem_map.mp hb
      exact .inl ⟨r, hr, rfl⟩
    · exact .inr hb
  refine { closed := h.closed, tallied := ?_, waiting := ?_, kept := ?_, guids := ?_, fresh := ?_ }
  · intro b hb
    obtain ⟨r, hr, rfl⟩ := List.mem_map.mp hb
    exact (hf r hr).1.toTallied
  · intro b hb
    obtain ⟨r, hr, rfl⟩ := List.mem_map.mp hb
    exact (hf r hr).2
  · intro b hb
    rcases hmem b hb with ⟨r, hr, rfl⟩ | hb
    · exact (hf r hr).1
    · exact h.kept b (List.mem_append_right _ hb)
  · have hguids := h.guids
    have hcomp : Roll.itemGUID ∘ f = Roll.itemGUID := funext hguid
    simp only [all, List.map_append, List.map_map, hcomp] at hguids ⊢
    exact hguids
  · intro b hb
    rcases hmem b hb with ⟨r, hr, rfl⟩ | hb
    · rw [hguid]
      exact h.fresh r (List.mem_append_left _ hr)
    · exact h.fresh b (List.mem_append_right _ hb)

theorem Regular.remove (h : Regular s) (hop : Admits s (.remove guid)) :
    Regular (s.removeMember guid) := by
  rw [removeMember_eq h.pending]
  refine h.map (Roll.leave_itemGUID guid) fun r hr => ?_
  refine ⟨(h.kept r (List.mem_append_left _ hr)).leave guid, ?_⟩
  cases hvote : r.voteOf guid with
  | none =>
    obtain ⟨e, he, hopen⟩ := h.waiting r hr
    exact ⟨e, Roll.mem_leave.mpr ⟨he, Roll.voteOf_eq_none.mp hvote e he⟩, hopen⟩
  | some e =>
    obtain ⟨e', he', hne, hopen⟩ := hop r hr (by rw [hvote]; rfl)
    exact ⟨e', Roll.mem_leave.mpr ⟨he', hne⟩, hopen⟩

theorem admits_of_remove (h : Regular s) (hcounted : Counted (s.removeMember guid)) :
    Admits s (.remove guid) := by
  rw [removeMember_eq h.pending] at hcounted
  intro r hr _
  obtain ⟨e, he, hopen⟩ := hcounted.waiting _ (List.mem_map_of_mem hr)
  obtain ⟨he, hne⟩ := Roll.mem_leave.mp he
  exact ⟨e, he, hne, hopen⟩

/-! ## Runs -/

theorem Regular.lootChanges (h : Regular s) (guid : ℕ) (loot : Option Loot) :
    Regular (s.step (.lootChanges guid loot)) := by
  refine h.map (fun r => ?_) fun r hr => ?_
  · split <;> rfl
  · have hkept := h.kept r (List.mem_append_left _ hr)
    have hopen := h.waiting r hr
    split
    · exact ⟨{ hkept with }, hopen⟩
    · exact ⟨hkept, hopen⟩

theorem follows_lootChanges (s : Rolls) (guid : ℕ) (loot : Option Loot) :
    s.Follows (s.step (.lootChanges guid loot)) := by
  intro r hr
  rcases List.mem_append.mp hr with hr | hr
  · refine ⟨_, List.mem_append_left _ (List.mem_map_of_mem hr), ?_⟩
    split
    · exact ⟨rfl, fun e he => ⟨e, he, rfl, .inr rfl⟩⟩
    · exact .refl r
  · exact ⟨r, List.mem_append_right _ hr, .refl r⟩

theorem step_regular (s : Rolls) (op : Op) (h : Regular s) (hop : Admits s op) :
    Regular (s.step op) := by
  cases op with
  | start kind loot party => exact h.start hop
  | vote playerGUID guid rollType => exact (vote_spec h hop).1
  | remove guid => exact h.remove hop
  | lootChanges guid loot => exact h.lootChanges guid loot

theorem step_follows (s : Rolls) (op : Op) (h : Regular s) (hop : Admits s op) :
    s.Follows (s.step op) := by
  cases op with
  | start kind loot party => exact follows_start s loot party kind.eligible kind.autoPass
  | vote playerGUID guid rollType => exact (vote_spec h hop).2
  | remove guid => exact follows_remove h guid
  | lootChanges guid loot => exact follows_lootChanges s guid loot

theorem admits_of_counted (s : Rolls) (op : Op) (h : Regular s) (hcounted : Counted (s.step op)) :
    Admits s op := by
  cases op with
  | start kind loot party => exact admits_of_start hcounted
  | vote playerGUID guid rollType => exact admits_of_vote h hcounted
  | remove guid => exact admits_of_remove h hcounted
  | lootChanges guid loot => exact trivial

theorem regular_noRolls : Regular noRolls :=
  { tallied := fun _ hr => (nomatch hr), waiting := fun _ hr => (nomatch hr),
    closed := fun _ hr => (nomatch hr), kept := fun _ hr => (nomatch hr), guids := List.nodup_nil,
    fresh := fun _ hr => (nomatch hr) }

/-- **When rolls are counted and closed as they should be.** In every state of a run the totals are
those of the votes, and a roll is closed just if it waits for no vote, and no vote that was given is
changed later, just if every step of the run is admitted. -/
theorem counted_iff_admits (ops : List Op) :
    ((∀ l, l <+: ops → Counted (l.foldl step noRolls)) ∧
      ∀ l l', l <+: l' → l' <+: ops →
        VotesFinal (l.foldl step noRolls) (l'.foldl step noRolls)) ↔
    AllAlong step Admits noRolls ops := by
  have hcounted := Lib.always_iff_allAlong step_regular (fun _ h => h.toCounted) admits_of_counted
    regular_noRolls ops
  constructor
  · exact fun h => hcounted.mp h.1
  · intro h
    refine ⟨hcounted.mpr h, ?_⟩
    rintro l _ ⟨l₂, rfl⟩ ⟨l₃, rfl⟩
    obtain ⟨hall, -⟩ := Lib.allAlong_append.mp h
    obtain ⟨hfirst, hsecond⟩ := Lib.allAlong_append.mp hall
    have hreg := Lib.foldl_keeps_of_allAlong step_regular regular_noRolls hfirst
    have hreg' := Lib.foldl_keeps_of_allAlong step_regular regular_noRolls hall
    have hf := Lib.foldl_relates_of_allAlong step_regular Follows.refl Follows.trans step_follows
      hreg hsecond
    rw [← List.foldl_append] at hf
    exact hf.votesFinal hreg hreg'

/-- Two players who may roll, and who both pass automatically or both do not. -/
def pair (passOnGroupLoot : Bool) : Party :=
  ⟨[⟨1, true, true, true, true, passOnGroupLoot⟩, ⟨2, true, true, true, true, passOnGroupLoot⟩],
    by simp, by simp [maxRaidSize]⟩

/-- The first of two players votes twice, and the roll is closed without the second. The second of
them leaves instead of voting, and the roll waits for nobody. Both pass automatically, and the roll
waits for nobody from its start. -/
theorem not_counted_of_gaps :
    ¬ Counted ([.start .groupLoot ⟨1⟩ (pair false), .vote 1 0 1, .vote 1 0 2].foldl step noRolls) ∧
    ¬ Counted ([.start .groupLoot ⟨1⟩ (pair false), .vote 1 0 1, .remove 2].foldl step noRolls) ∧
    ¬ Counted ([.start .groupLoot ⟨1⟩ (pair true), .remove 3].foldl step noRolls) := by
  decide +kernel

end Rolls

end Sunstrider.Groups
