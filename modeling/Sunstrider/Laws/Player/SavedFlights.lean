import Sunstrider.Lib.Run
import Sunstrider.Laws.Utilities.Tokens
import Sunstrider.Player.PlayerTaxi

/-!
# A saved flight resumes where it was

The numbers of a flight are printed with a space behind each, so they are the tokens of the text. A flight is
taken up again where there is a mount for it. Loading a text without any token reads behind the tokens.
-/

namespace Sunstrider.Player.PlayerTaxi

open Utilities
open Lib (Yields)

variable {stores : TaxiStores} {taxi : PlayerTaxi}

theorem tokenizer_saved (faction : UInt32) (nodes : List UInt32) :
    tokenizer ' ' [] (digits faction ++ ' ' :: nodes.flatMap fun node => digits node ++ [' ']) =
      digits faction :: nodes.map digits := by
  have hword : ∀ (n : UInt32) (rest : List Char),
      tokenizer ' ' [] (digits n ++ ' ' :: rest) = digits n :: tokenizer ' ' [] rest := fun n rest =>
    tokenizer_append (not_mem_digits (by decide)) (not_mem_digits (by decide)) [] rest
  rw [hword]
  congr 1
  induction nodes with
  | nil => rfl
  | cons node nodes ih =>
    rw [List.flatMap_cons, List.append_assoc, List.map_cons, ← ih]
    exact hword node _

/-- Destinations that a flight can have: none, or a chain of paths. -/
def Flyable (stores : TaxiStores) (nodes : List UInt32) : Prop :=
  nodes = [] ∨ (2 ≤ nodes.length ∧
    ∀ i, ∀ h : i + 1 < nodes.length, (stores.getTaxiPath nodes[i] nodes[i + 1]).1 ≠ 0)

theorem hasPaths_iff (nodes : List UInt32) : hasPaths stores nodes = true ↔
    ∀ i, ∀ h : i + 1 < nodes.length, (stores.getTaxiPath nodes[i] nodes[i + 1]).1 ≠ 0 := by
  induction nodes with
  | nil => simp [hasPaths]
  | cons a nodes ih =>
    cases nodes with
    | nil => simp [hasPaths]
    | cons b nodes =>
      rw [hasPaths, Bool.and_eq_true, ih, decide_eq_true_eq]
      constructor
      · rintro ⟨hfirst, hrest⟩ i hi
        cases i with
        | zero => exact hfirst
        | succ i => exact hrest i (by simpa using hi)
      · intro h
        exact ⟨h 0 (by simp), fun i hi => h (i + 1) (by simpa using hi)⟩

/-- A flight has a mount where it starts. -/
def Mounted (stores : TaxiStores) (team : UInt32) (nodes : List UInt32) : Prop :=
  stores.getTaxiMountDisplayId (nodes.headD 0) team true ≠ 0

instance decidableMounted (stores : TaxiStores) (team : UInt32) (nodes : List UInt32) :
    Decidable (Mounted stores team nodes) :=
  inferInstanceAs (Decidable (_ ≠ _))

theorem load_of_tokens (stores : TaxiStores) (team : UInt32) {values : List Char} {faction : List Char}
    {nodes : List (List Char)} (h : tokenizer ' ' [] values = faction :: nodes) :
    ∃ resumes, loadTaxiDestinationsFromString stores values team =
        .ok (resumes, ⟨nodes.map atoul, atoul faction⟩) ∧
      (resumes = true ↔ nodes.map atoul = [] ∨
        (Flyable stores (nodes.map atoul) ∧ Mounted stores team (nodes.map atoul))) := by
  rw [loadTaxiDestinationsFromString, h]
  dsimp only
  by_cases hnone : nodes.map atoul = []
  · rw [if_pos hnone]
    exact ⟨true, rfl, iff_of_true rfl (.inl hnone)⟩
  · rw [if_neg hnone]
    by_cases hshort : (nodes.map atoul).length < 2
    · rw [if_pos hshort]
      refine ⟨false, rfl, iff_of_false Bool.false_ne_true ?_⟩
      rintro (hempty | ⟨hempty | ⟨hlong, -⟩, -⟩)
      · exact hnone hempty
      · exact hnone hempty
      · exact absurd hlong (not_le.mpr hshort)
    · rw [if_neg hshort]
      by_cases hpaths : hasPaths stores (nodes.map atoul) = true
      · have hflyable : Flyable stores (nodes.map atoul) := .inr ⟨not_lt.mp hshort, (hasPaths_iff _).mp hpaths⟩
        rw [if_neg (by simp [hpaths])]
        by_cases hmount : stores.getTaxiMountDisplayId ((nodes.map atoul).headD 0) team true = 0
        · refine ⟨false, if_pos hmount, iff_of_false Bool.false_ne_true ?_⟩
          rintro (hempty | ⟨-, hmounted⟩)
          · exact hnone hempty
          · exact hmounted hmount
        · exact ⟨true, if_neg hmount, iff_of_true rfl (.inr ⟨hflyable, hmount⟩)⟩
      · rw [if_pos (by simpa using hpaths)]
        refine ⟨false, rfl, iff_of_false Bool.false_ne_true ?_⟩
        rintro (hempty | ⟨hempty | ⟨-, hchain⟩, -⟩)
        · exact hnone hempty
        · exact hnone hempty
        · exact hpaths ((hasPaths_iff _).mpr hchain)

/-- **A saved flight resumes where it was**, if there is a mount for it; and a text with a token is loaded as no
flight or as one that can be flown, or is refused. -/
theorem saved_flight_resumes (stores : TaxiStores) (team : UInt32) :
    (∀ taxi : PlayerTaxi, taxi.taxiDestinations ≠ [] → Flyable stores taxi.taxiDestinations →
      Yields taxi.saveTaxiDestinationsToString fun values =>
        loadTaxiDestinationsFromString stores values team =
          .ok (decide (Mounted stores team taxi.taxiDestinations), taxi)) ∧
    ∀ values : List Char, values ≠ [] → values.head? ≠ some '\x00' →
      Yields (loadTaxiDestinationsFromString stores values team) fun r =>
        r.1 = true → Flyable stores r.2.taxiDestinations := by
  refine ⟨fun taxi hne hflyable => ?_, fun values hne hend => ?_⟩
  · have hlong := (hflyable.resolve_left hne).1
    rw [saveTaxiDestinationsToString, if_neg hne, if_neg (not_lt.mpr hlong)]
    refine .ok ?_
    obtain ⟨resumes, hload, hresumes⟩ := load_of_tokens stores team
      (tokenizer_saved taxi.flightMasterFactionId taxi.taxiDestinations)
    have hnodes : (taxi.taxiDestinations.map digits).map atoul = taxi.taxiDestinations := by
      rw [List.map_map]
      exact List.map_id'' atoul_digits _
    rw [hnodes] at hload hresumes
    rw [atoul_digits] at hload
    have hsame : resumes = decide (Mounted stores team taxi.taxiDestinations) := by
      rw [Bool.eq_iff_iff, hresumes, decide_eq_true_eq]
      exact ⟨fun h => (h.resolve_left hne).2, fun h => .inr ⟨hflyable, h⟩⟩
    rw [hload, hsame]
  · obtain ⟨faction, nodes, htokens⟩ := List.exists_cons_of_ne_nil
      (mt (tokenizer_eq_nil_iff (by decide : ' ' ≠ '\x00') values).mp (not_or.mpr ⟨hne, hend⟩))
    obtain ⟨resumes, hload, hresumes⟩ := load_of_tokens stores team htokens
    exact ⟨_, hload, fun htrue => (hresumes.mp htrue).elim .inl And.left⟩

/-! ## A flight -/

/-- A game with one path, from 2 to 6. -/
def onePath : TaxiStores where
  taxiPathSetBySource source :=
    if source = 2 then some fun destination => if destination = 6 then some ⟨1, 100⟩ else none else none
  taxiNodesStore id := if id = 2 then some ⟨541, 0⟩ else none
  getRandomValidModelId entry := if entry = 541 then some 1147 else none
  modelRandomGender model := model

/-- The same game without the mount. -/
def noMount : TaxiStores := { onePath with getRandomValidModelId := fun _ => none }

theorem flyable_onePath : Flyable onePath [2, 6] := by
  refine .inr ⟨le_rfl, fun i hi => ?_⟩
  obtain rfl : i = 0 := Nat.lt_one_iff.mp (Nat.lt_of_succ_lt_succ hi)
  exact (by decide : (onePath.getTaxiPath 2 6).1 ≠ 0)

/-- The one flight, with a mount. -/
theorem saved_flight_resumes_one : Yields (saveTaxiDestinationsToString ⟨[2, 6], 12⟩) fun values =>
    loadTaxiDestinationsFromString onePath values alliance =
      .ok (decide (Mounted onePath alliance [2, 6]), ⟨[2, 6], 12⟩) :=
  (saved_flight_resumes onePath alliance).1 ⟨[2, 6], 12⟩ (List.cons_ne_nil _ _) flyable_onePath

/-- No flight is saved as the empty text, whose loading reads behind the tokens; and a flight without a mount is
refused. -/
theorem not_saved_flight_resumes :
    (saveTaxiDestinationsToString ⟨[], 12⟩ = .ok [] ∧
      loadTaxiDestinationsFromString onePath [] alliance = .error .readsPastTokens) ∧
    Flyable noMount [2, 6] ∧ Yields (saveTaxiDestinationsToString ⟨[2, 6], 12⟩) fun values =>
      loadTaxiDestinationsFromString noMount values alliance = .ok (false, ⟨[2, 6], 12⟩) :=
  ⟨⟨rfl, rfl⟩, flyable_onePath, ⟨['1', '2', ' ', '2', ' ', '6', ' '], by decide, by decide⟩⟩

end Sunstrider.Player.PlayerTaxi
