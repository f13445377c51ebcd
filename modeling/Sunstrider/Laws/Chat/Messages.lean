import Sunstrider.Laws.Chat.LinkScan

/-!
# The messages that are let through

`CheckAllLinks` goes over a message twice, and each pass pairs up the pipes from the left. `Controls` is
what the first pass asks for, and `Accepts` is the grammar of messages. The first pass lets all messages of
the grammar through, and of those that it lets through the second finds out which are of the grammar.
-/

namespace Sunstrider.Chat

open Sunstrider.Lib

/-! ## The grammar -/

/-- What messages are made of. -/
inductive Piece
  | char (c : UInt8)
  /-- `||`. -/
  | escapedPipe
  | link (l : Link)

namespace Piece

def bytes : Piece → List UInt8
  | .char c => [c]
  | .escapedPipe => [pipe, pipe]
  | .link l => l.bytes

def Valid (v : Validators) : Piece → Prop
  | .char c => c ≠ pipe
  | .escapedPipe => True
  | .link l => l.WellFormed ∧ v.validates l.argb l.tag (l.data.getD []) l.text = true

end Piece

/-- The string is a concatenation of characters, escaped pipes and links that the validators accept. -/
def Accepts (v : Validators) (str : List UInt8) : Prop :=
  ∃ ps : List Piece, (∀ p ∈ ps, p.Valid v) ∧ str = ps.flatMap Piece.bytes

variable {v : Validators}

theorem Accepts.nil : Accepts v [] := ⟨[], fun _ hp => (nomatch hp), rfl⟩

variable {s : List UInt8}

theorem Accepts.cons {p : Piece} (hp : p.Valid v) (h : Accepts v s) : Accepts v (p.bytes ++ s) := by
  obtain ⟨ps, hps, rfl⟩ := h
  exact ⟨p :: ps, List.forall_mem_cons.mpr ⟨hp, hps⟩, rfl⟩

theorem Link.bytes_eq_cons (l : Link) : ∃ r, l.bytes = pipe :: letterC :: r := ⟨_, rfl⟩

variable {c : UInt8}

/-- How a message of the grammar goes on from each of its pieces. -/
theorem Accepts.cases_cons (h : Accepts v (c :: s)) :
    (c ≠ pipe ∧ Accepts v s) ∨ (c = pipe ∧ ∃ r, s = pipe :: r ∧ Accepts v r) ∨
      ∃ l : Link, l.WellFormed ∧ v.validates l.argb l.tag (l.data.getD []) l.text = true ∧
        ∃ r, c :: s = l.bytes ++ r ∧ Accepts v r := by
  obtain ⟨ps, hps, heq⟩ := h
  cases ps with
  | nil => exact nomatch heq
  | cons p ps =>
    obtain ⟨hp, hrest⟩ := List.forall_mem_cons.mp hps
    cases p with
    | char d =>
      obtain ⟨rfl, rfl⟩ := List.cons.inj heq
      exact .inl ⟨hp, ps, hrest, rfl⟩
    | escapedPipe =>
      obtain ⟨rfl, rfl⟩ := List.cons.inj heq
      exact .inr (.inl ⟨rfl, _, rfl, ps, hrest, rfl⟩)
    | link l => exact .inr (.inr ⟨l, hp.1, hp.2, _, heq, ps, hrest, rfl⟩)

theorem accepts_cons_iff (hc : c ≠ pipe) : Accepts v (c :: s) ↔ Accepts v s := by
  refine ⟨fun h => ?_, fun h => Accepts.cons (p := .char c) hc h⟩
  obtain ⟨-, h⟩ | ⟨rfl, -⟩ | ⟨l, -, -, r, heq, -⟩ := h.cases_cons
  · exact h
  · exact absurd rfl hc
  · obtain ⟨b, hb⟩ := l.bytes_eq_cons
    exact absurd (List.cons.inj heq).1 hc

theorem accepts_escaped_iff : Accepts v (pipe :: pipe :: s) ↔ Accepts v s := by
  refine ⟨fun h => ?_, fun h => Accepts.cons (p := .escapedPipe) trivial h⟩
  obtain ⟨h, -⟩ | ⟨-, r, heq, h⟩ | ⟨l, -, -, r, heq, -⟩ := h.cases_cons
  · exact absurd rfl h
  · cases heq
    exact h
  · obtain ⟨b, hb⟩ := l.bytes_eq_cons
    exact absurd (List.cons.inj (List.cons.inj heq).2).1 (by decide)

theorem Accepts.link_of_pipe (h : Accepts v (pipe :: s)) (hs : ∀ r, s ≠ pipe :: r) :
    ∃ l : Link, l.WellFormed ∧ v.validates l.argb l.tag (l.data.getD []) l.text = true ∧
      ∃ r, pipe :: s = l.bytes ++ r ∧ Accepts v r := by
  obtain ⟨h, -⟩ | ⟨-, r, heq, -⟩ | h := h.cases_cons
  · exact absurd rfl h
  · exact absurd heq (hs r)
  · exact h

/-- Characters other than the pipe may stand anywhere. -/
theorem accepts_append_iff {pre : List UInt8} (hpre : pipe ∉ pre) :
    Accepts v (pre ++ s) ↔ Accepts v s := by
  induction pre with
  | nil => rfl
  | cons c pre ih =>
    obtain ⟨hc, hpre⟩ := not_or.mp (List.mem_cons.not.mp hpre)
    rw [List.cons_append, accepts_cons_iff (Ne.symm hc), ih hpre]

/-! ## The first pass -/

/-- The characters that may follow a pipe. -/
abbrev IsControl (c : UInt8) : Prop :=
  c = letterH ∨ c = smallH ∨ c = letterC ∨ c = smallR ∨ c = pipe

/-- Paired up from the left, every pipe is followed by one of these. -/
inductive Controls : List UInt8 → Prop
  | nil : Controls []
  | char {c : UInt8} {s : List UInt8} (hc : c ≠ pipe) (hs : Controls s) : Controls (c :: s)
  | control {c : UInt8} {s : List UInt8} (hc : IsControl c) (hs : Controls s) : Controls (pipe :: c :: s)

theorem Controls.append {t : List UInt8} (hs : Controls s) (ht : Controls t) :
    Controls (s ++ t) := by
  induction hs with
  | nil => exact ht
  | char hc _ ih => exact .char hc ih
  | control hc _ ih => exact .control hc ih

theorem Controls.of_not_mem (h : pipe ∉ s) : Controls s := by
  induction s with
  | nil => exact .nil
  | cons c s ih =>
    obtain ⟨hc, hs⟩ := not_or.mp (List.mem_cons.not.mp h)
    exact .char (Ne.symm hc) (ih hs)

theorem controls_cons (hc : c ≠ pipe) (h : Controls (c :: s)) : Controls s := by
  cases h with
  | char _ hs => exact hs
  | control _ _ => exact absurd rfl hc

theorem controls_pipe_cons (h : Controls (pipe :: c :: s)) : IsControl c ∧ Controls s := by
  cases h with
  | char hc _ => exact absurd rfl hc
  | control hc hs => exact ⟨hc, hs⟩

theorem not_controls_pipe : ¬ Controls [pipe] := by
  intro h
  cases h with
  | char hc _ => exact hc rfl

theorem controls_append_iff {pre : List UInt8} (hpre : pipe ∉ pre) :
    Controls (pre ++ s) ↔ Controls s := by
  refine ⟨fun h => ?_, fun h => (Controls.of_not_mem hpre).append h⟩
  induction pre with
  | nil => exact h
  | cons c pre ih =>
    obtain ⟨hc, hpre⟩ := not_or.mp (List.mem_cons.not.mp hpre)
    exact ih hpre (controls_cons (Ne.symm hc) h)

theorem IsHex.ne_pipe (h : IsHex c) : c ≠ pipe := by
  rintro rfl
  revert h
  unfold IsHex
  decide

variable {l : Link}

/-- Every pipe of a link is followed by a letter of the link. -/
theorem Link.WellFormed.controls (h : l.WellFormed) : Controls l.bytes := by
  have hcolor : Controls l.color := .of_not_mem fun hp => (h.color _ hp).ne_pipe rfl
  have hdata : Controls l.dataBytes := by
    rw [Link.dataBytes]
    split
    · next data hd => exact .char (by decide) (.of_not_mem (h.data data hd))
    · exact .nil
  have hend : Controls [closeBracket, pipe, smallH, pipe, smallR] :=
    .char (by decide) (.control (by simp [IsControl]) (.control (by simp [IsControl]) .nil))
  have htext : Controls (pipe :: smallH :: openBracket ::
      (l.text ++ [closeBracket, pipe, smallH, pipe, smallR])) :=
    .control (by simp [IsControl]) (.char (by decide) ((Controls.of_not_mem h.text.1).append hend))
  have htag : Controls (pipe :: letterH :: (l.tag ++ (l.dataBytes ++
      pipe :: smallH :: openBracket :: (l.text ++ [closeBracket, pipe, smallH, pipe, smallR])))) :=
    .control (by simp [IsControl]) ((Controls.of_not_mem h.tag.1).append (hdata.append htext))
  exact .control (by simp [IsControl]) (hcolor.append htag)

/-- **The first pass lets every message of the grammar through.** -/
theorem Accepts.controls (h : Accepts v s) : Controls s := by
  obtain ⟨ps, hps, rfl⟩ := h
  induction ps with
  | nil => exact .nil
  | cons p ps ih =>
    obtain ⟨hp, hps⟩ := List.forall_mem_cons.mp hps
    refine Controls.append ?_ (ih hps)
    cases p with
    | char c => exact .char hp .nil
    | escapedPipe => exact .control (by simp [IsControl]) .nil
    | link l => exact hp.1.controls

/-! ## Looking for pipes -/

/-- The next pipe is the first one of the string, and the string is split there. -/
theorem findPipe_cStr (s : List UInt8) :
    (findPipe (cStr s) = none ∧ pipe ∉ s) ∨
      ∃ pre r, s = pre ++ pipe :: r ∧ pipe ∉ pre ∧ findPipe (cStr s) = some (cStr (pipe :: r)) := by
  induction s with
  | nil => exact .inl ⟨rfl, List.not_mem_nil⟩
  | cons c s ih =>
    by_cases hc : c = pipe
    · subst hc
      exact .inr ⟨[], s, rfl, List.not_mem_nil, if_pos rfl⟩
    · have hnext : findPipe (cStr (c :: s)) = findPipe (cStr s) := if_neg hc
      rw [hnext]
      obtain ⟨hnone, hs⟩ | ⟨pre, r, rfl, hpre, hsome⟩ := ih
      · refine .inl ⟨hnone, fun h => ?_⟩
        obtain rfl | h := List.mem_cons.mp h
        · exact hc rfl
        · exact hs h
      · refine .inr ⟨c :: pre, r, rfl, fun h => ?_, hsome⟩
        obtain rfl | h := List.mem_cons.mp h
        · exact hc rfl
        · exact hpre h

/-- There is a character after each pipe, if only the terminating zero. -/
theorem charAfter_pipe (r : List UInt8) : charAfter (cStr (pipe :: r)) = .ok (r.headD 0) := by
  cases r <;> rfl

/-! ## Both passes -/

variable {fuel : ℕ} {pos : Ptr}

theorem checkControls_of_none (h : findPipe pos = none) : checkControls fuel pos = .ok true := by
  rw [checkControls.eq_def, h]

variable {r : List UInt8}

theorem checkControls_of_some (h : findPipe pos = some (cStr (pipe :: r))) :
    checkControls (fuel + 1) pos =
      if IsControl (r.headD 0) then checkControls fuel ((cStr (pipe :: r)).drop 2) else .ok false := by
  rw [checkControls.eq_def, h]
  dsimp only
  rw [charAfter_pipe]
  rfl

theorem checkLinks_of_none (h : findPipe pos = none) : checkLinks v fuel pos = .ok true := by
  rw [checkLinks.eq_def, h]

theorem checkLinks_of_some (h : findPipe pos = some (cStr (pipe :: r))) :
    checkLinks v (fuel + 1) pos =
      if r.headD 0 = pipe then checkLinks v fuel ((cStr (pipe :: r)).drop 2)
      else match parseHyperlink (cStr (pipe :: r)) with
        | .error .refused => .ok false
        | .error stop => .error stop
        | .ok info =>
          if v.validateLinkInfo info then checkLinks v fuel info.next else .ok false := by
  rw [checkLinks.eq_def, h]
  dsimp only
  rw [charAfter_pipe]
  rfl

theorem checkControls_yields (fuel : ℕ) (hfuel : s.length ≤ fuel) :
    Yields (checkControls fuel (cStr s)) fun b => b = true ↔ Controls s := by
  induction fuel generalizing s with
  | zero =>
    obtain rfl := List.length_eq_zero_iff.mp (Nat.le_zero.mp hfuel)
    exact .ok (by simp [Controls.nil])
  | succ fuel ih =>
    obtain ⟨hnone, hs⟩ | ⟨pre, r, rfl, hpre, hsome⟩ := findPipe_cStr s
    · rw [checkControls_of_none hnone]
      exact .ok (by simp [Controls.of_not_mem hs])
    rw [checkControls_of_some hsome]
    simp only [controls_append_iff hpre]
    cases r with
    | nil =>
      rw [if_neg (by decide)]
      exact .ok (by simp [not_controls_pipe])
    | cons c r =>
      have hlen : r.length ≤ fuel := by
        simp only [List.length_append, List.length_cons] at hfuel
        omega
      split_ifs with hc
      · refine (ih hlen).mono fun b hb => hb.trans ⟨fun h => .control hc h, fun h => ?_⟩
        exact (controls_pipe_cons h).2
      · refine .ok ⟨fun h => (nomatch h), fun h => ?_⟩
        exact absurd (controls_pipe_cons h).1 hc

theorem Link.Told.validateLinkInfo {rest : List UInt8} {info : HyperlinkInfo} (h : l.Told rest info)
    : v.validateLinkInfo info = v.validates l.argb l.tag (l.data.getD []) l.text := by
  rw [Validators.validateLinkInfo, h.color, h.tag, h.data, h.text]

/-- A message of the grammar goes on after the link that the parser finds, since it finds no other. -/
theorem accepts_link_iff (hr : ∀ t, r ≠ pipe :: t) (h₀ : 0 ∉ pipe :: r) {info : HyperlinkInfo}
    (hparse : parseHyperlink (cStr (pipe :: r)) = .ok info) {rest : List UInt8} (hl : l.WellFormed)
    (heq : pipe :: r = l.bytes ++ rest) (htold : l.Told rest info) :
    Accepts v (pipe :: r) ↔ v.validateLinkInfo info = true ∧ Accepts v rest := by
  constructor
  · intro h
    obtain ⟨l', hl', hvalid, rest', heq', h⟩ := h.link_of_pipe hr
    rw [heq'] at h₀ hparse
    obtain ⟨info', hinfo', htold'⟩ := parseHyperlink_append hl' h₀
    obtain rfl : info = info' := Except.ok.inj (hparse.symm.trans hinfo')
    have hrest : rest' = rest := List.append_cancel_right (htold'.next.symm.trans htold.next)
    rw [htold'.validateLinkInfo, ← hrest]
    exact ⟨hvalid, h⟩
  · rintro ⟨hvalid, h⟩
    rw [htold.validateLinkInfo] at hvalid
    rw [heq]
    exact h.cons (p := .link l) ⟨hl, hvalid⟩

theorem checkLinks_yields (v : Validators) (fuel : ℕ) (h₀ : 0 ∉ s) (hfuel : s.length ≤ fuel) :
    Yields (checkLinks v fuel (cStr s)) fun b => b = true ↔ Accepts v s := by
  induction fuel generalizing s with
  | zero =>
    obtain rfl := List.length_eq_zero_iff.mp (Nat.le_zero.mp hfuel)
    exact .ok (by simp [Accepts.nil])
  | succ fuel ih =>
    obtain ⟨hnone, hs⟩ | ⟨pre, r, rfl, hpre, hsome⟩ := findPipe_cStr s
    · rw [checkLinks_of_none hnone]
      have haccepts : Accepts v s := by
        rw [← List.append_nil s]
        exact (accepts_append_iff hs).mpr .nil
      exact .ok (by simp [haccepts])
    have hlen : r.length ≤ fuel := by
      simp only [List.length_append, List.length_cons] at hfuel
      omega
    have hr₀ : 0 ∉ pipe :: r := fun h => h₀ (List.mem_append_right pre h)
    rw [checkLinks_of_some hsome]
    simp only [accepts_append_iff hpre]
    split_ifs with hc
    · cases r with
      | nil => exact absurd hc (by decide)
      | cons c r =>
        obtain rfl : c = pipe := hc
        refine (ih (fun h => hr₀ (by simp [h])) (by simp at hlen; omega)).mono fun b hb => ?_
        rw [hb, accepts_escaped_iff]
    · have hnotPipe : ∀ t, r ≠ pipe :: t := by
        rintro t rfl
        exact hc rfl
      cases hparse : parseHyperlink (cStr (pipe :: r)) with
      | error stop =>
        cases stop with
        | pastTheEnd =>
          have h := parseHyperlink_avoids (show Stop.pastTheEnd ≠ .refused by decide) (pipe :: r)
          rw [hparse] at h
          exact absurd rfl h
        | endless =>
          have h := parseHyperlink_avoids (show Stop.endless ≠ .refused by decide) (pipe :: r)
          rw [hparse] at h
          exact absurd rfl h
        | refused =>
          refine .ok ⟨fun h => (nomatch h), fun h => ?_⟩
          obtain ⟨l, hl, -, rest, heq, -⟩ := h.link_of_pipe hnotPipe
          rw [heq] at hr₀ hparse
          obtain ⟨info, hinfo, -⟩ := parseHyperlink_append hl hr₀
          rw [hparse] at hinfo
          exact nomatch hinfo
      | ok info =>
        have h := parseHyperlink_avoids (show Stop.endless ≠ .refused by decide) (pipe :: r)
        rw [hparse] at h
        obtain ⟨l, rest, hl, heq, htold⟩ := h
        dsimp only
        have hrest : rest.length ≤ fuel := by
          have hlength := congrArg List.length heq
          rw [List.length_append, List.length_cons] at hlength
          have hbytes : 0 < l.bytes.length := Nat.succ_pos _
          omega
        have hrest₀ : 0 ∉ rest := fun h => hr₀ (heq ▸ List.mem_append_right _ h)
        rw [htold.next]
        simp only [accepts_link_iff hnotPipe hr₀ hparse hl heq htold]
        split_ifs with hvalid
        · exact (ih hrest₀ hrest).mono fun b hb => hb.trans ⟨fun h => ⟨hvalid, h⟩, fun h => h.2⟩
        · exact .ok ⟨fun h => (nomatch h), fun h => absurd h.1 hvalid⟩

/-- **What `CheckAllLinks` lets through is the grammar**, of every string that has no zero of its own. It
comes to its end, and never reads past the end of the string. -/
theorem checkAllLinks_iff_accepts (v : Validators) (str : { str : List UInt8 // 0 ∉ str }) :
    Yields (checkAllLinks v str) fun ok => ok = true ↔ Accepts v str := by
  refine (checkControls_yields _ le_rfl).bind fun ok hok => ?_
  split_ifs with hc
  · exact checkLinks_yields v _ str.2 le_rfl
  · refine .ok ⟨fun h => (nomatch h), fun h => ?_⟩
    exact absurd (hok.mpr h.controls) hc

end Sunstrider.Chat
