import Mathlib.Data.List.Basic
import Mathlib.Data.Set.Basic
import Mathlib.Data.Set.Insert

/-!
# Partial computations and their runs

A component is a state `S`, a type `Op` of operations and a partial `step`. A fault (a failed
assertion, a freed object that is read, a loop that outlives its bound) is the `error` of the step.

`Yields x P` is the total-correctness triple of such a computation: `x` faults nowhere, and its
answer meets `P`. Its rules (`Yields.bind`, `Yields.foldlM`, `Yields.loop`) carry the specifications
of the operations. `Ensures x P` is the partial-correctness triple of a computation that may run out
of fuel, `Answers x P` that of one that may fault, and `Avoids bad x P` that of one that may end in a
fault other than `bad`.

`drain` is the loop `while (!container.empty()) body(container.begin())`, with a bound on its rounds;
`Yields.drain` asks for what makes the bound enough, a measure that each round lowers.

`run` folds a list of operations, so a fault anywhere in a run is the run's fault. `Admitted` says of
a run that each of its steps meets a condition on the state before it. Two rules carry every run
result of the development:

- `run_keeps`: an invariant that every step keeps, together with the absence of faults, holds after
  every run, and no run faults;
- `run_keeps_of_admitted`: the same of the admitted steps and the admitted runs.

`run_tracks_of_admitted` is the second rule for an invariant that also speaks of the operations so far.
`simulates` compares a machine with one whose steps are a relation, and `Ends` is for loops that may return.
-/

namespace Sunstrider.Lib

variable {S Op F α β : Type}

/-! ## Total correctness -/

/-- The computation succeeds, and its answer meets `P`. -/
def Yields (x : Except F α) (P : α → Prop) : Prop := ∃ a, x = .ok a ∧ P a

variable {a : α} {R : β → Prop} {Inv : S → Prop}

namespace Yields

variable {x : Except F α} {P Q : α → Prop}

theorem ok (h : P a) : Yields (Except.ok a : Except F α) P := ⟨a, rfl, h⟩

theorem mono (h : Yields x P) (imp : ∀ a, P a → Q a) : Yields x Q := by
  obtain ⟨a, hx, ha⟩ := h
  exact ⟨a, hx, imp a ha⟩

/-- Two facts about the one answer a computation has. -/
theorem and (h : Yields x P) (h' : Yields x Q) : Yields x (fun a => P a ∧ Q a) := by
  obtain ⟨a, rfl, ha⟩ := h
  obtain ⟨b, hb, hq⟩ := h'
  cases hb
  exact ⟨a, rfl, ha, hq⟩

/-- The rule for a sequence. -/
theorem bind {f : α → Except F β} (h : Yields x P) (hf : ∀ a, P a → Yields (f a) R) :
    Yields (x >>= f) R := by
  obtain ⟨a, rfl, ha⟩ := h
  exact hf a ha

/-- The rule for a loop over a list, with one invariant of the state. -/
theorem foldlM {f : S → α → Except F S} (l : List α) {s : S} (init : Inv s)
    (body : ∀ s, ∀ a ∈ l, Inv s → Yields (f s a) Inv) : Yields (l.foldlM f s) Inv := by
  induction l generalizing s with
  | nil => exact ⟨s, rfl, init⟩
  | cons a l ih =>
    rw [List.foldlM_cons]
    refine (body s a List.mem_cons_self init).bind fun t ht => ?_
    exact ih ht fun s b hb => body s b (List.mem_cons_of_mem a hb)

/-- The rule for a loop whose invariant speaks of the elements still to come. -/
theorem loop {f : S → α → Except F S} (Inv : List α → S → Prop) (l : List α) {s : S}
    (init : Inv l s) (body : ∀ s a rest, Inv (a :: rest) s → Yields (f s a) (Inv rest)) :
    Yields (l.foldlM f s) (Inv []) := by
  induction l generalizing s with
  | nil => exact ⟨s, rfl, init⟩
  | cons a l ih =>
    rw [List.foldlM_cons]
    exact (body s a l init).bind fun t ht => ih ht

/-- The rule for a loop that ends as soon as it has found something. -/
theorem anyM {f : α → Except F Bool} {Q : α → Prop} (l : List α)
    (h : ∀ a ∈ l, Yields (f a) fun b => b = true ↔ Q a) :
    Yields (l.anyM f) fun b => b = true ↔ ∃ a ∈ l, Q a := by
  induction l with
  | nil => exact .ok (by simp)
  | cons a l ih =>
    rw [List.anyM_cons]
    refine (h a List.mem_cons_self).bind fun b hb => ?_
    cases b with
    | true => exact .ok (by simp [← hb])
    | false =>
      refine (ih fun a' ha' => h a' (List.mem_cons_of_mem a ha')).mono fun b' hb' => ?_
      rw [hb', List.exists_mem_cons_iff, ← hb]
      simp

end Yields

theorem ok_bind (a : α) (f : α → Except F β) : (Except.ok a >>= f) = f a := rfl

/-- What a successful sequence did: its first part succeeded, and its second from there. -/
theorem bind_eq_ok {x : Except F α} {f : α → Except F β} {b : β} :
    x >>= f = .ok b ↔ ∃ a, x = .ok a ∧ f a = .ok b := by
  cases x with
  | error e => exact ⟨fun h => (nomatch h), fun ⟨_, h, _⟩ => (nomatch h)⟩
  | ok a => exact ⟨fun h => ⟨a, rfl, h⟩, fun ⟨_, h, h'⟩ => by cases h; exact h'⟩

/-! ## Partial correctness -/

/-- Whatever the computation answers meets `P`. A computation that runs out of fuel answers `none`. -/
def Ensures (x : Option α) (P : α → Prop) : Prop := ∀ a, x = some a → P a

namespace Ensures

variable {x : Option α} {P Q : α → Prop}

theorem of_some (h : P a) : Ensures (some a) P := by
  intro b hb
  cases hb
  exact h

theorem mono (h : Ensures x P) (imp : ∀ a, P a → Q a) : Ensures x Q := fun a ha => imp a (h a ha)

/-- The rule for a sequence. -/
theorem bind {f : α → Option β} (h : Ensures x P) (hf : ∀ a, P a → Ensures (f a) R) :
    Ensures (x.bind f) R := by
  cases x with
  | none => exact fun b hb => (nomatch hb)
  | some a => exact hf a (h a rfl)

theorem map {f : α → β} (h : Ensures x fun a => R (f a)) : Ensures (x.map f) R := by
  cases x with
  | none => exact fun b hb => (nomatch hb)
  | some a => exact of_some (h a rfl)

/-- The rule for a loop whose invariant speaks of the elements still to come. -/
theorem loop {f : S → α → Option S} (Inv : List α → S → Prop) (l : List α) {s : S}
    (init : Inv l s) (body : ∀ s a rest, Inv (a :: rest) s → Ensures (f s a) (Inv rest)) :
    Ensures (l.foldlM f s) (Inv []) := by
  induction l generalizing s with
  | nil => exact of_some init
  | cons a l ih =>
    rw [List.foldlM_cons]
    exact (body s a l init).bind fun t ht => ih ht

/-- The rule for a loop with one invariant of the state. -/
theorem foldlM {f : S → α → Option S} (l : List α) {s : S} (init : Inv s)
    (body : ∀ s, ∀ a ∈ l, Inv s → Ensures (f s a) Inv) : Ensures (l.foldlM f s) Inv := by
  induction l generalizing s with
  | nil => exact of_some init
  | cons a l ih =>
    rw [List.foldlM_cons]
    refine (body s a List.mem_cons_self init).bind fun t ht => ?_
    exact ih ht fun s b hb => body s b (List.mem_cons_of_mem a hb)

end Ensures

variable {l : List α}

/-- A loop whose every round answers. -/
theorem foldlM_isSome {f : S → α → Option S} (body : ∀ s, ∀ a ∈ l, (f s a).isSome) (s : S) :
    (l.foldlM f s).isSome := by
  induction l generalizing s with
  | nil => rfl
  | cons a l ih =>
    obtain ⟨t, ht⟩ := Option.isSome_iff_exists.mp (body s a List.mem_cons_self)
    rw [List.foldlM_cons, ht]
    exact ih (fun s b hb => body s b (List.mem_cons_of_mem a hb)) t

/-- A loop whose every round succeeds is a loop of a total body. -/
theorem foldlM_eq_ok {f : S → α → Except F S} {g : S → α → S}
    (h : ∀ s, ∀ a ∈ l, f s a = .ok (g s a)) (s : S) : l.foldlM f s = .ok (l.foldl g s) := by
  induction l generalizing s with
  | nil => rfl
  | cons a l ih =>
    rw [List.foldlM_cons, h s a List.mem_cons_self]
    exact ih (fun s b hb => h s b (List.mem_cons_of_mem a hb)) (g s a)

/-- Two bodies that do the same with the elements of the list. -/
theorem foldlM_congr {f g : S → α → Except F S} (h : ∀ s, ∀ a ∈ l, f s a = g s a) (s : S) :
    l.foldlM f s = l.foldlM g s := by
  induction l generalizing s with
  | nil => rfl
  | cons a l ih =>
    rw [List.foldlM_cons, List.foldlM_cons, h s a List.mem_cons_self]
    exact bind_congr fun t => ih (fun s b hb => h s b (List.mem_cons_of_mem a hb)) t

/-! ## Absence of one fault -/

/-- The computation does not end in the fault `bad`, and what it answers meets `P`. It may end in
another fault. -/
def Avoids (bad : F) (x : Except F α) (P : α → Prop) : Prop :=
  match x with
  | .ok a => P a
  | .error f => f ≠ bad

namespace Avoids

variable {bad : F} {x : Except F α} {P Q : α → Prop}

theorem ok (h : P a) : Avoids bad (Except.ok a) P := h

theorem of_yields (h : Yields x P) : Avoids bad x P := by
  obtain ⟨a, rfl, ha⟩ := h
  exact ha

theorem mono (h : Avoids bad x P) (imp : ∀ a, P a → Q a) : Avoids bad x Q := by
  cases x with
  | error f => exact h
  | ok a => exact imp a h

/-- The rule for a sequence. -/
theorem bind {f : α → Except F β} (h : Avoids bad x P) (hf : ∀ a, P a → Avoids bad (f a) R) :
    Avoids bad (x >>= f) R := by
  cases x with
  | error f => exact h
  | ok a => exact hf a h

/-- The rule for a loop over a list, with one invariant of the state. -/
theorem foldlM {f : S → α → Except F S} (l : List α) {s : S} (init : Inv s)
    (body : ∀ s, ∀ a ∈ l, Inv s → Avoids bad (f s a) Inv) : Avoids bad (l.foldlM f s) Inv := by
  induction l generalizing s with
  | nil => exact init
  | cons a l ih =>
    rw [List.foldlM_cons]
    refine (body s a List.mem_cons_self init).bind fun t ht => ?_
    exact ih ht fun s b hb => body s b (List.mem_cons_of_mem a hb)

end Avoids

/-! ## Answers of a computation that may fault -/

/-- Where the computation succeeds, its answer meets `P`. -/
def Answers (x : Except F α) (P : α → Prop) : Prop := ∀ a, x = .ok a → P a

namespace Answers

variable {x : Except F α} {P : α → Prop}

theorem ok (h : P a) : Answers (Except.ok a : Except F α) P := by
  intro b hb
  cases hb
  exact h

theorem error {f : F} : Answers (Except.error f) P := fun _ h => nomatch h

/-- The rule for a sequence. -/
theorem bind {f : α → Except F β} (h : Answers x P) (hf : ∀ a, P a → Answers (f a) R) :
    Answers (x >>= f) R := by
  cases x with
  | error e => exact error
  | ok a => exact hf a (h a rfl)

/-- The rule for a loop over a list, with one invariant of the state. -/
theorem foldlM {f : S → α → Except F S} (l : List α) {s : S} (init : Inv s)
    (body : ∀ s, ∀ a ∈ l, Inv s → Answers (f s a) Inv) : Answers (l.foldlM f s) Inv := by
  induction l generalizing s with
  | nil => exact ok init
  | cons a l ih =>
    rw [List.foldlM_cons]
    refine (body s a List.mem_cons_self init).bind fun t ht => ?_
    exact ih ht fun s b hb => body s b (List.mem_cons_of_mem a hb)

/-- The rule for a check that may refuse. -/
theorem guard {c : Prop} [Decidable c] {f : F} (h : ¬ c → Answers x P) :
    Answers (if c then .error f else x) P := by
  split
  · exact error
  · next hc => exact h hc

/-- Two continuations that agree on the answers. -/
theorem bind_congr {f g : α → Except F β} (h : Answers x P) (hfg : ∀ a, P a → f a = g a) :
    x >>= f = x >>= g := by
  cases x with
  | error e => rfl
  | ok a => exact hfg a (h a rfl)

/-- What is known of the answers of a computation that succeeds. -/
theorem and_yields {Q : α → Prop} (h : Answers x P) (h' : Yields x Q) :
    Yields x fun a => P a ∧ Q a := by
  obtain ⟨a, hx, ha⟩ := h'
  exact ⟨a, hx, h a hx, ha⟩

end Answers

/-! ## Faults under another name -/

section MapError

variable {E : Type}

theorem mapError_bind (f : E → F) (x : Except E α) (g : α → Except E β) :
    (x >>= g).mapError f = x.mapError f >>= fun a => (g a).mapError f := by
  cases x <;> rfl

theorem mapError_foldlM (f : E → F) (g : S → α → Except E S) (l : List α) (s : S) :
    (l.foldlM g s).mapError f = l.foldlM (fun s a => (g s a).mapError f) s := by
  induction l generalizing s with
  | nil => rfl
  | cons a l ih =>
    rw [List.foldlM_cons, mapError_bind, List.foldlM_cons]
    exact bind_congr ih

end MapError

/-! ## Loops that empty a container -/

/-- While `first` finds something, `body` deals with it. More than `fuel` rounds are the fault
`endless`. -/
def drain (first : S → Option α) (body : S → α → Except F S) (endless : F) : ℕ → S → Except F S
  | fuel, s =>
    match first s, fuel with
    | none, _ => .ok s
    | some _, 0 => .error endless
    | some a, fuel + 1 => body s a >>= drain first body endless fuel

variable {first : S → Option α} {body : S → α → Except F S} {endless : F}

/-- Such a loop over states of which `f` forgets a part that no round needs. -/
theorem map_drain {T : Type} {f : S → T} {first' : T → Option α} {body' : T → α → Except F T}
    (hfirst : ∀ s, first s = first' (f s)) (hbody : ∀ s a, (body s a).map f = body' (f s) a)
    (fuel : ℕ) (s : S) :
    (drain first body endless fuel s).map f = drain first' body' endless fuel (f s) := by
  induction fuel generalizing s with
  | zero =>
    unfold drain
    rw [hfirst]
    cases first' (f s) <;> rfl
  | succ fuel ih =>
    unfold drain
    rw [hfirst]
    cases first' (f s) with
    | none => rfl
    | some a =>
      dsimp only
      rw [← hbody]
      cases body s a with
      | error e => rfl
      | ok t => exact ih t

/-- The rule for such a loop: a round keeps the invariant and lowers the size, and the size is the
number of rounds that is enough. -/
theorem Yields.drain (Inv : S → Prop) (size : S → ℕ) (round : ∀ s a, Inv s → first s = some a →
      Yields (body s a) fun t => Inv t ∧ size t < size s) (fuel : ℕ) {s : S} (init : Inv s)
    (enough : size s ≤ fuel) :
    Yields (drain first body endless fuel s) fun t => Inv t ∧ first t = none := by
  induction fuel generalizing s with
  | zero =>
    unfold Lib.drain
    cases hf : first s with
    | none => exact .ok ⟨init, hf⟩
    | some a =>
      obtain ⟨t, -, -, hlt⟩ := round s a init hf
      omega
  | succ fuel ih =>
    unfold Lib.drain
    cases hf : first s with
    | none => exact .ok ⟨init, hf⟩
    | some a => exact (round s a init hf).bind fun t ht => ih ht.1 (by omega)

/-- The rule for such a loop where a round may not lower the size. -/
theorem Avoids.drain {bad : F} (hne : endless ≠ bad) (Inv : S → Prop)
    (round : ∀ s a, Inv s → first s = some a → Avoids bad (body s a) Inv) (fuel : ℕ) {s : S}
    (init : Inv s) :
    Avoids bad (drain first body endless fuel s) fun t => Inv t ∧ first t = none := by
  induction fuel generalizing s with
  | zero =>
    unfold Lib.drain
    cases hf : first s with
    | none => exact .ok ⟨init, hf⟩
    | some a => exact hne
  | succ fuel ih =>
    unfold Lib.drain
    cases hf : first s with
    | none => exact .ok ⟨init, hf⟩
    | some a => exact (round s a init hf).bind fun t ht => ih ht

/-- The rule for such a loop that may never end. -/
theorem Answers.drain (Inv : S → Prop)
    (round : ∀ s a, Inv s → first s = some a → Answers (body s a) Inv) (fuel : ℕ) {s : S}
    (init : Inv s) : Answers (drain first body endless fuel s) fun t => Inv t ∧ first t = none := by
  induction fuel generalizing s with
  | zero =>
    unfold Lib.drain
    cases hf : first s with
    | none => exact .ok ⟨init, hf⟩
    | some a => exact .error
  | succ fuel ih =>
    unfold Lib.drain
    cases hf : first s with
    | none => exact .ok ⟨init, hf⟩
    | some a => exact (round s a init hf).bind fun t ht => ih ht

/-! ## Runs -/

/-- The operations of a list, one after another. The first fault ends the run. -/
def run (step : S → Op → Except F S) (s : S) (ops : List Op) : Except F S :=
  ops.foldlM step s

/-- **The run rule.** Where every step from an invariant state succeeds and keeps the invariant, so
does every run. -/
theorem run_keeps {step : S → Op → Except F S} (keeps : ∀ s op, Inv s → Yields (step s op) Inv)
    (ops : List Op) {s : S} (init : Inv s) : Yields (run step s ops) Inv :=
  Yields.foldlM ops init fun s op _ => keeps s op

/-- Every operation of the list meets `Admits` in the state in which the run comes to it. -/
def Admitted (step : S → Op → Except F S) (Admits : S → Op → Prop) : S → List Op → Prop
  | _, [] => True
  | s, op :: ops =>
    Admits s op ∧
      match step s op with
      | .ok t => Admitted step Admits t ops
      | .error _ => True

instance Admitted.decidable (step : S → Op → Except F S) (Admits : S → Op → Prop)
    [∀ s op, Decidable (Admits s op)] : ∀ s ops, Decidable (Admitted step Admits s ops)
  | _, [] => inferInstanceAs (Decidable True)
  | s, op :: ops => by
    unfold Admitted
    cases step s op with
    | ok t =>
      have := Admitted.decidable step Admits t ops
      exact inferInstanceAs (Decidable (_ ∧ _))
    | error e => exact inferInstanceAs (Decidable (_ ∧ True))

variable {Admits : S → Op → Prop} {I : S → Prop}

/-- **The rule for admitted runs.** Every step that is admitted in an invariant state succeeds and
keeps the invariant, so every admitted run does. -/
theorem run_keeps_of_admitted {step : S → Op → Except F S}
    (keeps : ∀ s op, I s → Admits s op → Yields (step s op) I) {ops : List Op} {s : S} (init : I s)
    (admitted : Admitted step Admits s ops) : Yields (run step s ops) I := by
  induction ops generalizing s with
  | nil => exact .ok init
  | cons op ops ih =>
    obtain ⟨t, ht, hinv⟩ := keeps s op init admitted.1
    have hrest : Admitted step Admits t ops := by
      have h := admitted.2
      rw [ht] at h
      exact h
    show Yields (step s op >>= fun t => run step t ops) I
    rw [ht]
    exact ih hinv hrest

variable {ops' : List Op}

/-- An admitted run in two parts. -/
theorem Admitted.append {step : S → Op → Except F S} {s : S} {ops : List Op}
    (h : Admitted step Admits s (ops ++ ops')) :
    Admitted step Admits s ops ∧ ∀ t, run step s ops = .ok t → Admitted step Admits t ops' := by
  induction ops generalizing s with
  | nil =>
    refine ⟨trivial, fun t ht => ?_⟩
    cases ht
    exact h
  | cons op ops ih =>
    obtain ⟨hop, hrest⟩ := h
    show (Admits s op ∧ match step s op with
      | .ok t => Admitted step Admits t ops
      | .error _ => True) ∧ ∀ t, step s op >>= (fun u => run step u ops) = .ok t → _
    cases hstep : step s op with
    | error f => exact ⟨⟨hop, trivial⟩, fun t ht => nomatch ht⟩
    | ok u =>
      rw [hstep] at hrest
      obtain ⟨hfirst, hlast⟩ := ih hrest
      exact ⟨⟨hop, hfirst⟩, hlast⟩

/-- A run in two parts. -/
theorem run_append (step : S → Op → Except F S) (s : S) (ops ops' : List Op) :
    run step s (ops ++ ops') = run step s ops >>= fun t => run step t ops' := List.foldlM_append

theorem Admitted.concat {step : S → Op → Except F S} {s t : S} {ops : List Op}
    (h : Admitted step Admits s ops) (ht : run step s ops = .ok t)
    (h' : Admitted step Admits t ops') : Admitted step Admits s (ops ++ ops') := by
  induction ops generalizing s with
  | nil =>
    cases ht
    exact h'
  | cons op ops ih =>
    obtain ⟨hop, hrest⟩ := h
    refine ⟨hop, ?_⟩
    change step s op >>= (fun u => run step u ops) = .ok t at ht
    cases hstep : step s op with
    | error f => trivial
    | ok u =>
      rw [hstep] at hrest ht
      exact ih hrest ht

variable {A B : S → Op → Prop}

/-- A run that is admitted twice, where the second may need an assumption. -/
theorem Admitted.and_imp {step : S → Op → Except F S} {p : Prop} {s : S} {ops : List Op}
    (h : Admitted step A s ops) (h' : p → Admitted step B s ops) :
    Admitted step (fun s op => A s op ∧ (p → B s op)) s ops := by
  induction ops generalizing s with
  | nil => trivial
  | cons op ops ih =>
    obtain ⟨hop, hrest⟩ := h
    refine ⟨⟨hop, fun hp => (h' hp).1⟩, ?_⟩
    have hrest' := fun hp => (h' hp).2
    cases hstep : step s op with
    | error f => trivial
    | ok t =>
      rw [hstep] at hrest hrest'
      exact ih hrest hrest'

/-- The rule for admitted runs that may end in a fault other than `bad`. -/
theorem run_avoids_of_admitted {step : S → Op → Except F S} {bad : F}
    (keeps : ∀ s op, Inv s → Admits s op → Avoids bad (step s op) Inv) {ops : List Op} {s : S}
    (init : Inv s) (admitted : Admitted step Admits s ops) : Avoids bad (run step s ops) Inv := by
  induction ops generalizing s with
  | nil => exact init
  | cons op ops ih =>
    have hstep := keeps s op init admitted.1
    have hrest := admitted.2
    show Avoids bad (step s op >>= fun t => run step t ops) Inv
    cases ht : step s op with
    | error f =>
      rw [ht] at hstep
      exact hstep
    | ok t =>
      rw [ht] at hstep hrest
      exact ih hstep hrest

/-- **The rule for what a state remembers.** An invariant that relates the state to the operations so
far is kept by every admitted run. -/
theorem run_tracks_of_admitted {step : S → Op → Except F S} {Inv : List Op → S → Prop}
    {all : List Op} (keeps : ∀ past op s, past ++ [op] <+: all → Inv past s → Admits s op →
      Yields (step s op) (Inv (past ++ [op]))) {s : S} (init : Inv [] s)
    (admitted : Admitted step Admits s all) : Yields (run step s all) (Inv all) := by
  -- The induction is on the operations still to come, for every past.
  have aux : ∀ (ops past : List Op) (s : S), past ++ ops = all → Inv past s →
      Admitted step Admits s ops → Yields (run step s ops) (Inv all) := by
    intro ops
    induction ops with
    | nil =>
      intro past s hall hinv _
      rw [← hall, List.append_nil]
      exact .ok hinv
    | cons op ops ih =>
      intro past s hall hinv hadm
      have hall' : past ++ [op] ++ ops = all := by rw [← hall, List.append_assoc]; rfl
      obtain ⟨t, ht, hinv'⟩ := keeps past op s ⟨ops, hall'⟩ hinv hadm.1
      have hrest : Admitted step Admits t ops := by
        have h := hadm.2
        rw [ht] at h
        exact h
      show Yields (step s op >>= fun t => run step t ops) (Inv all)
      rw [ht]
      exact ih (past ++ [op]) t hall' hinv' hrest
  exact aux all [] s rfl init admitted

/-- **When a partial computation keeps a property all along a run.** Where an admitted step succeeds
and keeps the invariant, the invariant gives the property, and only an admitted step succeeds and
leaves the property standing, every part of a run succeeds with the property just if every step of the
run is admitted. -/
theorem always_iff_admitted {step : S → Op → Except F S} {P : S → Prop}
    (keeps : ∀ s op, Inv s → Admits s op → Yields (step s op) Inv) (holds : ∀ s, Inv s → P s)
    (breaks : ∀ s op, Inv s → Yields (step s op) P → Admits s op) {s : S} (init : Inv s)
    (ops : List Op) : (∀ l, l <+: ops → Yields (run step s l) P) ↔ Admitted step Admits s ops := by
  induction ops generalizing s with
  | nil =>
    refine ⟨fun _ => trivial, fun _ l hl => ?_⟩
    rw [List.prefix_nil.mp hl]
    exact .ok (holds s init)
  | cons op ops ih =>
    have hrun : ∀ l, run step s (op :: l) = step s op >>= fun t => run step t l := fun _ => rfl
    constructor
    · intro h
      have hfirst : Yields (step s op) P := by
        have hone := h [op] (List.prefix_append [op] ops)
        rw [hrun] at hone
        obtain ⟨t, ht, hP⟩ := hone
        obtain ⟨t', ht', hnil⟩ := bind_eq_ok.mp ht
        cases hnil
        exact ⟨t, ht', hP⟩
      have hop := breaks s op init hfirst
      obtain ⟨t, ht, hinv⟩ := keeps s op init hop
      show Admits s op ∧ match step s op with
        | .ok t => Admitted step Admits t ops
        | .error _ => True
      rw [ht]
      refine ⟨hop, (ih hinv).mp fun l hl => ?_⟩
      have hmore := h (op :: l) (List.prefix_cons_inj op |>.mpr hl)
      rw [hrun, ht] at hmore
      exact hmore
    · intro hadm l hl
      obtain ⟨t, ht, hinv⟩ := keeps s op init hadm.1
      have hrest : Admitted step Admits t ops := by
        have h := hadm.2
        rw [ht] at h
        exact h
      cases l with
      | nil => exact .ok (holds s init)
      | cons op' l =>
        obtain ⟨rfl, hl'⟩ := List.cons_prefix_cons.mp hl
        rw [hrun, ht]
        exact (ih hinv).mpr hrest l hl'

/-! ## Runs of total steps -/

/-- Every operation of the list meets `Admits` in the state in which the run of a total step comes to
it. -/
def AllAlong (step : S → Op → S) (Admits : S → Op → Prop) : S → List Op → Prop
  | _, [] => True
  | s, op :: ops => Admits s op ∧ AllAlong step Admits (step s op) ops

instance AllAlong.decidable (step : S → Op → S) (Admits : S → Op → Prop)
    [∀ s op, Decidable (Admits s op)] : ∀ s ops, Decidable (AllAlong step Admits s ops)
  | _, [] => inferInstanceAs (Decidable True)
  | s, op :: ops => by
    have := AllAlong.decidable step Admits (step s op) ops
    exact inferInstanceAs (Decidable (_ ∧ _))

variable {step : S → Op → S}

/-- The run rule of a total step. -/
theorem foldl_keeps (keeps : ∀ s op, I s → I (step s op)) (ops : List Op) {s : S} (init : I s) :
    I (ops.foldl step s) := by
  induction ops generalizing s with
  | nil => exact init
  | cons op ops ih => exact ih (keeps s op init)

/-- The rule for a loop of a total body whose invariant speaks of the elements still to come. -/
theorem foldl_loop {f : S → α → S} (Inv : List α → S → Prop) (l : List α) {s : S}
    (init : Inv l s) (body : ∀ s a rest, Inv (a :: rest) s → Inv rest (f s a)) :
    Inv [] (l.foldl f s) := by
  induction l generalizing s with
  | nil => exact init
  | cons a l ih => exact ih (body s a l init)

/-- The rule for the admitted runs of a total step. -/
theorem foldl_keeps_of_allAlong (keeps : ∀ s op, I s → Admits s op → I (step s op)) {ops : List Op}
    {s : S} (init : I s) (admitted : AllAlong step Admits s ops) : I (ops.foldl step s) := by
  induction ops generalizing s with
  | nil => exact init
  | cons op ops ih => exact ih (keeps s op init admitted.1) admitted.2

/-- A run in two parts. -/
theorem allAlong_append {s : S} {ops : List Op} :
    AllAlong step Admits s (ops ++ ops') ↔
      AllAlong step Admits s ops ∧ AllAlong step Admits (ops.foldl step s) ops' := by
  induction ops generalizing s with
  | nil => exact ⟨fun h => ⟨trivial, h⟩, fun h => h.2⟩
  | cons op ops ih =>
    show Admits s op ∧ AllAlong step Admits (step s op) (ops ++ ops') ↔
      (Admits s op ∧ AllAlong step Admits (step s op) ops) ∧
        AllAlong step Admits (ops.foldl step (step s op)) ops'
    rw [ih, and_assoc]

/-- The rule for what relates a state to each later one. -/
theorem foldl_relates_of_allAlong {R : S → S → Prop}
    (keeps : ∀ s op, Inv s → Admits s op → Inv (step s op)) (refl : ∀ s, R s s)
    (trans : ∀ s t u, R s t → R t u → R s u)
    (relates : ∀ s op, Inv s → Admits s op → R s (step s op)) {ops : List Op} {s : S} (init : Inv s)
    (admitted : AllAlong step Admits s ops) : R s (ops.foldl step s) := by
  induction ops generalizing s with
  | nil => exact refl s
  | cons op ops ih =>
    have hrest := ih (keeps s op init admitted.1) admitted.2
    exact trans _ _ _ (relates s op init admitted.1) hrest

/-- What every step meets is met all along every run. -/
theorem allAlong_of_forall (h : ∀ s op, Admits s op) (s : S) (ops : List Op) :
    AllAlong step Admits s ops := by
  induction ops generalizing s with
  | nil => trivial
  | cons op ops ih => exact ⟨h s op, ih _⟩

/-- **When a property holds all along a run** whose steps have something given. Where an admitted step
keeps the invariant, the invariant gives the property, and only an admitted step leaves the property
standing, the property holds in every state of the run just if every step of it is admitted. -/
theorem always_iff_allAlong_of {Given : S → Op → Prop} {P : S → Prop}
    (keeps : ∀ s op, I s → Given s op → Admits s op → I (step s op)) (holds : ∀ s, I s → P s)
    (breaks : ∀ s op, I s → Given s op → P (step s op) → Admits s op) {s : S} (init : I s)
    {ops : List Op} (given : AllAlong step Given s ops) :
    (∀ l, l <+: ops → P (l.foldl step s)) ↔ AllAlong step Admits s ops := by
  induction ops generalizing s with
  | nil =>
    refine ⟨fun _ => trivial, fun _ l hl => ?_⟩
    rw [List.prefix_nil.mp hl]
    exact holds s init
  | cons op ops ih =>
    constructor
    · intro h
      have hop := breaks s op init given.1 (h [op] (List.prefix_append [op] ops))
      refine ⟨hop, (ih (keeps s op init given.1 hop) given.2).mp fun l hl => ?_⟩
      exact h (op :: l) (List.prefix_cons_inj op |>.mpr hl)
    · rintro ⟨hop, hrest⟩ l hl
      cases l with
      | nil => exact holds s init
      | cons op' l =>
        obtain ⟨rfl, hl'⟩ := List.cons_prefix_cons.mp hl
        exact (ih (keeps s op' init given.1 hop) given.2).mpr hrest l hl'

/-- **When a property holds all along a run**, of steps that have nothing given. -/
theorem always_iff_allAlong {P : S → Prop} (keeps : ∀ s op, I s → Admits s op → I (step s op))
    (holds : ∀ s, I s → P s) (breaks : ∀ s op, I s → P (step s op) → Admits s op) {s : S}
    (init : I s) (ops : List Op) :
    (∀ l, l <+: ops → P (l.foldl step s)) ↔ AllAlong step Admits s ops :=
  always_iff_allAlong_of (fun s op hs _ => keeps s op hs) holds (fun s op hs _ => breaks s op hs) init
    (allAlong_of_forall (fun _ _ => trivial) s ops)

theorem AllAlong.and {s : S} {ops : List Op} (h : AllAlong step A s ops)
    (h' : AllAlong step B s ops) : AllAlong step (fun s op => A s op ∧ B s op) s ops := by
  induction ops generalizing s with
  | nil => trivial
  | cons op ops ih => exact ⟨⟨h.1, h'.1⟩, ih h.2 h'.2⟩

/-- What an invariant and a condition of the steps give of each step. -/
theorem AllAlong.mono_of_keeps (keeps : ∀ s op, I s → A s op → I (step s op))
    (imp : ∀ s op, I s → A s op → B s op) {s : S} {ops : List Op} (init : I s)
    (h : AllAlong step A s ops) : AllAlong step B s ops := by
  induction ops generalizing s with
  | nil => trivial
  | cons op ops ih => exact ⟨imp s op init h.1, ih (keeps s op init h.1) h.2⟩

/-- What holds in every state of a run holds after each of its steps. -/
theorem allAlong_of_always {P : S → Prop} {s : S} {ops : List Op}
    (h : ∀ l, l <+: ops → P (l.foldl step s)) :
    AllAlong step (fun s op => P (step s op)) s ops := by
  have keeps : ∀ s op, P s → P (step s op) → P (step s op) := fun _ _ _ hstep => hstep
  have breaks : ∀ s op, P s → P (step s op) → P (step s op) := fun _ _ _ hstep => hstep
  exact (always_iff_allAlong keeps (fun _ hs => hs) breaks (h [] List.nil_prefix) ops).mp h

/-! ## What a run uses up -/

/-- What the steps of a run use, all together. -/
def usedAlong (step : S → Op → S) (use : S → Op → ℕ) : S → List Op → ℕ
  | _, [] => 0
  | s, op :: ops => use s op + usedAlong step use (step s op) ops

/-- **The rule for quotas.** Where a counter that stays below a limit grows by what is used, at least,
no run uses more than what is left below the limit. -/
theorem usedAlong_le {use : S → Op → ℕ} {counter : S → ℕ} {limit : ℕ}
    (keeps : ∀ s op, Inv s → Inv (step s op))
    (charge : ∀ s op, Inv s → counter s + use s op ≤ counter (step s op))
    (bound : ∀ s, Inv s → counter s ≤ limit) (ops : List Op) {s : S} (init : Inv s) :
    counter s + usedAlong step use s ops ≤ limit := by
  induction ops generalizing s with
  | nil => exact bound s init
  | cons op ops ih =>
    have hstep := charge s op init
    have hrest := ih (keeps s op init)
    show counter s + (use s op + usedAlong step use (step s op) ops) ≤ limit
    omega

end Sunstrider.Lib

/-!
## Simulation by a machine that chooses

A machine whose step is a function follows one whose step is a relation: each operation gets the same
answer on both sides, and a relation between the two states is kept (`simulates`). What every step of
the second machine keeps holds at the end of all its runs (`Trace.keeps`).
-/

namespace Sunstrider.Lib

variable {C A Op R : Type}

/-- A run of a machine whose steps are a relation, with the answers of its operations. -/
inductive Trace (Step : A → Op → R → A → Prop) : A → List Op → List R → A → Prop
  | nil (a : A) : Trace Step a [] [] a
  | cons {a b c : A} {op : Op} {r : R} {ops : List Op} {rs : List R} (first : Step a op r b)
      (rest : Trace Step b ops rs c) : Trace Step a (op :: ops) (r :: rs) c

/-- The run rule of a relation. -/
theorem Trace.keeps {Step : A → Op → R → A → Prop} {Inv : A → Prop}
    (keeps : ∀ {a op r b}, Inv a → Step a op r b → Inv b) {a b : A} {ops : List Op} {rs : List R}
    (h : Trace Step a ops rs b) (init : Inv a) : Inv b := by
  induction h with
  | nil a => exact init
  | cons first _ ih => exact ih (keeps init first)

/-- The answers of a run. -/
def answers (step : C → Op → C × R) : C → List Op → List R
  | _, [] => []
  | c, op :: ops => (step c op).2 :: answers step (step c op).1 ops

/-- The state after a run. -/
def final (step : C → Op → C × R) (c : C) (ops : List Op) : C :=
  ops.foldl (fun c op => (step c op).1) c

/-- **Forward simulation**, for the operations that are admitted. -/
theorem simulates {step : C → Op → C × R} {Step : A → Op → R → A → Prop}
    {Admits : C → Op → Prop} {Represents : C → A → Prop}
    (simulate : ∀ {c a op}, Represents c a → Admits c op →
      ∃ b, Step a op (step c op).2 b ∧ Represents (step c op).1 b)
    {c : C} {a : A} (init : Represents c a) {ops : List Op}
    (admitted : AllAlong (fun c op => (step c op).1) Admits c ops) :
    ∃ b, Trace Step a ops (answers step c ops) b ∧ Represents (final step c ops) b := by
  induction ops generalizing c a with
  | nil => exact ⟨a, .nil a, init⟩
  | cons op ops ih =>
    obtain ⟨b, hstep, hb⟩ := simulate init admitted.1
    obtain ⟨b', htrace, hb'⟩ := ih hb admitted.2
    exact ⟨b', .cons hstep htrace, hb'⟩

end Sunstrider.Lib

/-!
## Loops that may return

A computation goes on with a state or returns an answer, which is its error. `Ends I E x` says that `x`
goes on with a state of which `I` holds, or returns an answer of which `E` holds. The invariant of a loop
speaks of the places that are dealt with, and each round adds some to these (`Ends.foldlM`).
-/

namespace Sunstrider.Lib

variable {S F α β κ : Type}

/-- A computation goes on with a state of which `I` holds, or returns an answer of which `E` holds. -/
def Ends (I : α → Prop) (E : F → Prop) : Except F α → Prop
  | .ok a => I a
  | .error e => E e

namespace Ends

variable {I J : α → Prop} {E : F → Prop} {x : Except F α}

theorem mono (h : Ends I E x) (imp : ∀ a, I a → J a) : Ends J E x := by
  cases x with
  | ok a => exact imp a h
  | error e => exact h

/-- The rule for a sequence. -/
theorem bind {J : β → Prop} {f : α → Except F β} (h : Ends I E x)
    (hf : ∀ a, I a → Ends J E (f a)) : Ends J E (x >>= f) := by
  cases x with
  | ok a => exact hf a h
  | error e => exact h

/-- The rule for a loop over a list, with an invariant of the places that are dealt with. -/
theorem foldlM {f : S → α → Except F S} {Inv : Set κ → S → Prop} {marks : α → Set κ} (l : List α)
    {start : Set κ} {s : S} (init : Inv start s)
    (body : ∀ a ∈ l, ∀ done s, start ⊆ done → Inv done s → Ends (Inv (done ∪ marks a)) E (f s a)) :
    Ends (Inv (start ∪ {k | ∃ a ∈ l, k ∈ marks a})) E (l.foldlM f s) := by
  induction l generalizing start s with
  | nil =>
    have hnone : start ∪ {k | ∃ a ∈ ([] : List α), k ∈ marks a} = start := by
      ext k
      simp
    rw [hnone]
    exact init
  | cons a l ih =>
    have hrest : start ∪ {k | ∃ b ∈ a :: l, k ∈ marks b} =
        (start ∪ marks a) ∪ {k | ∃ b ∈ l, k ∈ marks b} := by
      ext k
      simp [or_assoc]
    rw [List.foldlM_cons, hrest]
    apply (body a List.mem_cons_self start s subset_rfl init).bind
    intro t ht
    apply ih ht
    intro b hb done s hdone
    exact body b (List.mem_cons_of_mem a hb) done s (Set.subset_union_left.trans hdone)

end Ends

end Sunstrider.Lib
