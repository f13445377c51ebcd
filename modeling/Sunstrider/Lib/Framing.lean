import Mathlib.Data.List.Basic

/-!
# Framed streams

A stream of frames. Each frame is a header of a fixed size, which the state of a cipher unlocks, and
a payload whose size the header tells. A header may also tell that the stream is malformed.

`Framer` reads such a stream one byte at a time (`feed`), and `read` is its fold over a stream. What
was read is thus independent of how the stream is cut (`read_append`), and the lemmas `read_header`,
`read_openHeader`, `read_payload` and `read_settle` say what a piece does that is longer than a byte.
`read_encodes` is the reading of a stream that some frames encode, and `read_splits` says of any stream
what is read of it.
-/

namespace Sunstrider.Lib

variable {C H B : Type}

/-- How the headers of a stream are read. `payloadSize` answers `none` on a malformed header. -/
structure Format (C H B : Type) where
  headerSize : ℕ
  headerSize_pos : 0 < headerSize
  unlock : C → List B → H × C
  payloadSize : H → Option ℕ

/-- What a reader has of the frame that it is in. -/
inductive Phase (H B : Type)
  | header (bytes : List B)
  | payload (h : H) (bytes : List B)
  | malformed (h : H)

structure Framer (C H B : Type) where
  cipher : C
  phase : Phase H B
  /-- The headers that the cipher has unlocked, in order. -/
  unlocked : List (List B)
  frames : List (H × List B)

namespace Framer

variable (fmt : Format C H B)

/-- A reader before the first byte. -/
def start (cipher : C) : Framer C H B := ⟨cipher, .header [], [], []⟩

/-- The bytes of a payload so far: the frame is complete, or there is more to come. -/
def settle (r : Framer C H B) (h : H) (bytes : List B) : Framer C H B :=
  if fmt.payloadSize h = some bytes.length then
    { r with phase := .header [], frames := r.frames ++ [(h, bytes)] }
  else { r with phase := .payload h bytes }

/-- A whole header. -/
def openHeader (r : Framer C H B) (bytes : List B) : Framer C H B :=
  let u := fmt.unlock r.cipher bytes
  let r := { r with cipher := u.2, unlocked := r.unlocked ++ [bytes] }
  if fmt.payloadSize u.1 = none then { r with phase := .malformed u.1 } else r.settle fmt u.1 []

def feed (r : Framer C H B) (b : B) : Framer C H B :=
  match r.phase with
  | .header bytes =>
    if bytes.length + 1 = fmt.headerSize then r.openHeader fmt (bytes ++ [b])
    else { r with phase := .header (bytes ++ [b]) }
  | .payload h bytes => r.settle fmt h (bytes ++ [b])
  | .malformed _ => r

def read (r : Framer C H B) (stream : List B) : Framer C H B := stream.foldl (feed fmt) r

/-! ## Pieces of a stream -/

variable {fmt} {r : Framer C H B} {bytes : List B} {h : H} {n : ℕ}

@[simp] theorem read_nil : r.read fmt [] = r := rfl

theorem read_cons (b : B) (bs : List B) : r.read fmt (b :: bs) = (r.feed fmt b).read fmt bs := rfl

/-- Reading goes on where it stopped. -/
theorem read_append (xs ys : List B) : r.read fmt (xs ++ ys) = (r.read fmt xs).read fmt ys :=
  List.foldl_append

/-- Bytes that do not complete the header. -/
theorem read_header (hp : r.phase = .header bytes) (cs : List B)
    (hlt : bytes.length + cs.length < fmt.headerSize) :
    r.read fmt cs = { r with phase := .header (bytes ++ cs) } := by
  induction cs generalizing r bytes with
  | nil => simp [← hp]
  | cons b cs ih =>
    simp only [List.length_cons] at hlt
    rw [read_cons, feed, hp]
    simp only
    rw [if_neg (by omega), ih rfl (by simp; omega), List.append_assoc, List.singleton_append]

/-- Bytes that complete it. -/
theorem read_openHeader (hp : r.phase = .header bytes) {cs : List B} (hne : cs ≠ [])
    (heq : bytes.length + cs.length = fmt.headerSize) :
    r.read fmt cs = r.openHeader fmt (bytes ++ cs) := by
  obtain ⟨ds, b, rfl⟩ := List.eq_nil_or_concat cs |>.resolve_left hne
  simp only [List.concat_eq_append, List.length_append, List.length_singleton] at heq ⊢
  rw [read_append, read_header hp ds (by omega), read_cons, feed]
  simp only [List.length_append]
  rw [if_pos (by omega), List.append_assoc]
  rfl

/-- Bytes that do not complete the payload. -/
theorem read_payload (hp : r.phase = .payload h bytes) (hn : fmt.payloadSize h = some n)
    (cs : List B) (hlt : bytes.length + cs.length < n) :
    r.read fmt cs = { r with phase := .payload h (bytes ++ cs) } := by
  induction cs generalizing r bytes with
  | nil => simp [← hp]
  | cons b cs ih =>
    simp only [List.length_cons] at hlt
    rw [read_cons, feed, hp]
    simp only
    have hne : fmt.payloadSize h ≠ some (bytes ++ [b]).length := by
      rw [hn, List.length_append, List.length_singleton]
      simp only [ne_eq, Option.some.injEq]
      omega
    rw [settle, if_neg hne, ih rfl (by simp; omega), List.append_assoc, List.singleton_append]

/-- Bytes that complete it. -/
theorem read_settle (hp : r.phase = .payload h bytes) (hn : fmt.payloadSize h = some n)
    {cs : List B} (hne : cs ≠ []) (heq : bytes.length + cs.length = n) :
    r.read fmt cs = r.settle fmt h (bytes ++ cs) := by
  obtain ⟨ds, b, rfl⟩ := List.eq_nil_or_concat cs |>.resolve_left hne
  simp only [List.concat_eq_append, List.length_append, List.length_singleton] at heq ⊢
  rw [read_append, read_payload hp hn ds (by omega), read_cons, feed]
  simp only
  rw [List.append_assoc]
  unfold settle
  rfl

/-- A malformed header is the last thing that is read. -/
theorem read_malformed (hp : r.phase = .malformed h) (cs : List B) : r.read fmt cs = r := by
  induction cs with
  | nil => rfl
  | cons b cs ih =>
    have hfeed : r.feed fmt b = r := by
      rw [feed, hp]
    rw [read_cons, hfeed, ih]

/-! ## Streams that encode frames -/

/-- From the state `c` of the cipher, `stream` is the concatenation of the headers `raws`, each
followed by its payload, and the frames are what they say. -/
inductive Encodes (fmt : Format C H B) :
    C → List (List B) → List (H × List B) → List B → C → Prop
  | nil (c : C) : Encodes fmt c [] [] [] c
  | cons {c c' c'' : C} {raw body stream : List B} {raws : List (List B)} {h : H}
      {frames : List (H × List B)} (size : raw.length = fmt.headerSize)
      (unlock : fmt.unlock c raw = (h, c')) (valid : fmt.payloadSize h = some body.length)
      (tail : Encodes fmt c' raws frames stream c'') :
      Encodes fmt c (raw :: raws) ((h, body) :: frames) (raw ++ body ++ stream) c''

variable {c c' : C} {stream : List B}

/-- **A stream that encodes frames is read as these frames**, and nothing of it is left. -/
theorem read_encodes {raws : List (List B)} {frames : List (H × List B)}
    (enc : Encodes fmt c raws frames stream c') (hp : r.phase = .header []) (hc : r.cipher = c) :
    r.read fmt stream =
      ⟨c', .header [], r.unlocked ++ raws, r.frames ++ frames⟩ := by
  induction enc generalizing r with
  | nil c => cases r; cases hp; cases hc; simp
  | @cons c c' c'' raw body stream raws h frames size unlock valid tail ih =>
    have hraw : raw ≠ [] := by
      intro hnil
      have := fmt.headerSize_pos
      simp [hnil] at size
      omega
    have hopen : r.read fmt raw = r.openHeader fmt ([] ++ raw) :=
      read_openHeader hp hraw (by simpa using size)
    have hframe : (r.openHeader fmt ([] ++ raw)).read fmt body =
        ⟨c', .header [], r.unlocked ++ [raw], r.frames ++ [(h, body)]⟩ := by
      simp only [openHeader, List.nil_append, hc, unlock, valid, reduceCtorEq, if_false]
      cases body with
      | nil => simp [settle, valid]
      | cons b body =>
        have hmore : ¬ fmt.payloadSize h = some ([] : List B).length := by
          rw [valid]
          simp
        rw [settle, if_neg hmore, read_settle rfl valid (List.cons_ne_nil b body) (by simp), settle,
          if_pos (by simpa using valid)]
        rfl
    rw [read_append, read_append, hopen, hframe, ih rfl rfl]
    simp

/-! ## The parts of a stream -/

/-- What a reader has read of `stream` from the state `c` of the cipher: the frames that a first part
of it encodes, and then either some bytes of a header, or a header and some bytes of its payload, or
a malformed header, after which nothing is read. -/
inductive Splits (fmt : Format C H B) (c : C) (stream : List B) : Framer C H B → Prop
  | header {raws : List (List B)} {frames : List (H × List B)} {part bytes : List B} {c' : C}
      (enc : Encodes fmt c raws frames part c') (short : bytes.length < fmt.headerSize)
      (cut : stream = part ++ bytes) : Splits fmt c stream ⟨c', .header bytes, raws, frames⟩
  | payload {raws : List (List B)} {frames : List (H × List B)} {part raw body : List B}
      {c' c'' : C} {h : H} {n : ℕ} (enc : Encodes fmt c raws frames part c')
      (size : raw.length = fmt.headerSize) (unlock : fmt.unlock c' raw = (h, c''))
      (valid : fmt.payloadSize h = some n) (short : body.length < n)
      (cut : stream = part ++ (raw ++ body)) :
      Splits fmt c stream ⟨c'', .payload h body, raws ++ [raw], frames⟩
  | malformed {raws : List (List B)} {frames : List (H × List B)} {part raw unread : List B}
      {c' c'' : C} {h : H} (enc : Encodes fmt c raws frames part c')
      (size : raw.length = fmt.headerSize) (unlock : fmt.unlock c' raw = (h, c''))
      (invalid : fmt.payloadSize h = none) (cut : stream = part ++ (raw ++ unread)) :
      Splits fmt c stream ⟨c'', .malformed h, raws ++ [raw], frames⟩

/-- A frame in front of a stream. -/
theorem Splits.cons {raw body : List B} {h : H} {r : Framer C H B}
    (size : raw.length = fmt.headerSize) (unlock : fmt.unlock c raw = (h, c'))
    (valid : fmt.payloadSize h = some body.length) (hr : Splits fmt c' stream r) :
    Splits fmt c (raw ++ body ++ stream)
      ⟨r.cipher, r.phase, raw :: r.unlocked, (h, body) :: r.frames⟩ := by
  cases hr with
  | header enc short cut =>
    exact .header (.cons size unlock valid enc) short (by rw [cut]; simp)
  | payload enc size' unlock' valid' short cut =>
    exact .payload (.cons size unlock valid enc) size' unlock' valid' short (by rw [cut]; simp)
  | @malformed raws frames part raw' unread _ _ _ enc size' unlock' invalid cut =>
    have hcut : raw ++ body ++ stream = raw ++ body ++ part ++ (raw' ++ unread) := by
      rw [cut, List.append_assoc (raw ++ body)]
    exact .malformed (.cons size unlock valid enc) size' unlock' invalid hcut

/-- What is read does not depend on what was recorded before. -/
theorem read_record (c : C) (p : Phase H B) (raws : List (List B)) (frames : List (H × List B))
    (stream : List B) :
    let t := (⟨c, p, [], []⟩ : Framer C H B).read fmt stream
    (⟨c, p, raws, frames⟩ : Framer C H B).read fmt stream =
      ⟨t.cipher, t.phase, raws ++ t.unlocked, frames ++ t.frames⟩ := by
  induction stream generalizing c p raws frames with
  | nil => simp
  | cons b stream ih =>
    intro t
    have hfeed : (⟨c, p, raws, frames⟩ : Framer C H B).feed fmt b =
        let u := (⟨c, p, [], []⟩ : Framer C H B).feed fmt b
        ⟨u.cipher, u.phase, raws ++ u.unlocked, frames ++ u.frames⟩ := by
      unfold feed openHeader settle
      cases p with
      | header bytes => simp only; split_ifs <;> simp
      | payload h bytes => simp only; split_ifs <;> simp
      | malformed h => simp
    have ht : t = ((⟨c, p, [], []⟩ : Framer C H B).feed fmt b).read fmt stream := rfl
    rw [read_cons, hfeed, ht]
    generalize (⟨c, p, [], []⟩ : Framer C H B).feed fmt b = u
    obtain ⟨c', p', raws', frames'⟩ := u
    rw [ih c' p' raws' frames', ih c' p' (raws ++ raws') (frames ++ frames')]
    simp

/-- Of a stream that encodes frames, what has come in is read as the first of them. -/
theorem read_cut {raws : List (List B)} {frames : List (H × List B)} {rest : List B}
    (enc : Encodes fmt c raws frames (stream ++ rest) c') : let r := (start c).read fmt stream
    (∀ h, r.phase ≠ .malformed h) ∧ r.frames <+: frames ∧ (rest = [] → r.frames = frames) := by
  intro r
  -- the reader goes on with what is missing
  have hall : r.read fmt rest = ⟨c', .header [], raws, frames⟩ :=
    (read_append stream rest).symm.trans (read_encodes (r := start c) enc rfl rfl)
  refine ⟨fun h hr => ?_, ?_, ?_⟩
  · rw [read_malformed hr] at hall
    rw [hall] at hr
    cases hr
  · exact ⟨_, congrArg Framer.frames
      ((read_record r.cipher r.phase r.unlocked r.frames rest).symm.trans hall)⟩
  · rintro rfl
    exact congrArg Framer.frames hall

/-- **Every stream splits into its frames and the rest**, and the reader finds them. -/
theorem read_splits (c : C) (stream : List B) :
    Splits fmt c stream ((start c).read fmt stream) := by
  induction hlen : stream.length using Nat.strongRecOn generalizing c stream with
  | _ n ih =>
    by_cases hshort : stream.length < fmt.headerSize
    · rw [read_header rfl stream (by simpa using hshort)]
      exact .header (.nil c) hshort rfl
    · -- a whole header, and what follows
      obtain ⟨raw, rest, hraw, rfl⟩ : ∃ raw rest, raw.length = fmt.headerSize ∧ stream = raw ++ rest :=
        ⟨stream.take fmt.headerSize, stream.drop fmt.headerSize, by simp; omega, by simp⟩
      have hne : raw ≠ [] := by
        intro hnil
        have := fmt.headerSize_pos
        simp [hnil] at hraw
        omega
      obtain ⟨⟨h, c'⟩, hu⟩ : ∃ u, fmt.unlock c raw = u := ⟨_, rfl⟩
      have hfull : (start c).read fmt raw = (start c).openHeader fmt ([] ++ raw) :=
        read_openHeader rfl hne (by simpa using hraw)
      rw [read_append, hfull]
      cases hsize : fmt.payloadSize h with
      | none =>
        have hopen : (start c).openHeader fmt ([] ++ raw) = ⟨c', .malformed h, [raw], []⟩ := by
          simp [openHeader, start, hu, hsize]
        rw [hopen, read_malformed rfl]
        exact .malformed (.nil c) hraw hu hsize rfl
      | some m =>
        by_cases hm : rest.length < m
        · have hopen : (start c).openHeader fmt ([] ++ raw) = ⟨c', .payload h [], [raw], []⟩ := by
            have : m ≠ 0 := by omega
            simp [openHeader, settle, start, hu, hsize, this]
          rw [hopen, read_payload rfl hsize rest (by simpa using hm)]
          exact .payload (.nil c) hraw hu hsize hm rfl
        · obtain ⟨body, rest', rfl, rfl⟩ : ∃ body rest', m = body.length ∧ rest = body ++ rest' :=
            ⟨rest.take m, rest.drop m, by simp; omega, by simp⟩
          have henc : Encodes fmt c [raw] [(h, body)] (raw ++ body ++ []) c' :=
            .cons hraw hu hsize (.nil c')
          have hframe : ((start c).openHeader fmt ([] ++ raw)).read fmt body =
              ⟨c', .header [], [raw], [(h, body)]⟩ := by
            have hread := read_encodes (r := start c) henc rfl rfl
            rw [List.append_nil, read_append, hfull] at hread
            exact hread
          have hrest := ih rest'.length (by
            have := fmt.headerSize_pos
            simp only [List.length_append] at hlen
            omega) c' rest' rfl
          rw [read_append, hframe, read_record, ← List.append_assoc]
          exact Splits.cons hraw hu hsize hrest

end Framer

end Sunstrider.Lib
