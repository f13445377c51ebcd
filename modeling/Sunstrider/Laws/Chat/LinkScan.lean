import Mathlib.Data.Nat.Bitwise
import Sunstrider.Chat.Hyperlinks
import Sunstrider.Lib.Run

/-!
# What the scanner of hyperlinks reads

Each stage of `ParseHyperlink` is described twice: what it has read whenever it goes on, and that it stops
for no other reason than a refusal, so never for a read past the end (`…_avoids`); and that it goes on
where the string has what it looks for (`…_append`). Together they say that the parser finds just the
links that a string begins with (`parseHyperlink_avoids`, `parseHyperlink_append`).
-/

namespace Sunstrider.Chat

open Sunstrider.Lib

variable {bad : Stop}

/-! ## Links -/

/-- A character of `0-9a-f`. -/
def IsHex (c : UInt8) : Prop :=
  ('0'.toUInt8 ≤ c ∧ c ≤ '9'.toUInt8) ∨ ('a'.toUInt8 ≤ c ∧ c ≤ 'f'.toUInt8)

/-- The number that such a character stands for. -/
def hexValue (c : UInt8) : ℕ := if c ≤ '9'.toUInt8 then c.toNat - 48 else c.toNat - 87

/-- `|c<color>|H<tag>[:<data>]|h[<text>]|h|r`. -/
structure Link where
  color : List UInt8
  tag : List UInt8
  data : Option (List UInt8)
  text : List UInt8

namespace Link

/-- The data with the colon before it, if there is any. -/
def dataBytes (l : Link) : List UInt8 :=
  match l.data with
  | some data => colon :: data
  | none => []

def bytes (l : Link) : List UInt8 :=
  pipe :: letterC :: (l.color ++ pipe :: letterH :: (l.tag ++ (l.dataBytes ++
    pipe :: smallH :: openBracket :: (l.text ++ [closeBracket, pipe, smallH, pipe, smallR]))))

/-- The colour as a number. -/
def argb (l : Link) : UInt32 := UInt32.ofNat (l.color.foldl (fun v c => 16 * v + hexValue c) 0)

structure WellFormed (l : Link) : Prop where
  length_color : l.color.length = 8
  color : ∀ c ∈ l.color, IsHex c
  tag : pipe ∉ l.tag ∧ colon ∉ l.tag
  data : ∀ data ∈ l.data, pipe ∉ data
  text : pipe ∉ l.text ∧ closeBracket ∉ l.text

/-- What a parsed link tells: the place after it, and its four parts. -/
structure Told (l : Link) (rest : List UInt8) (info : HyperlinkInfo) : Prop where
  next : info.next = cStr rest
  color : info.color = l.argb
  tag : info.tag.1.take info.tag.2 = l.tag
  data : info.data.1.take info.data.2 = l.data.getD []
  text : info.text.1.take info.text.2 = l.text

end Link

/-! ## Digits -/

theorem toHex_spec (c : UInt8) :
    (toHex c ≠ 0 ↔ IsHex c) ∧ (IsHex c → (toHex c &&& 0xf).toNat = hexValue c) := by
  have h : ∀ n : Fin 256, (toHex (UInt8.ofNat n) ≠ 0 ↔ IsHex (UInt8.ofNat n)) ∧
      (IsHex (UInt8.ofNat n) →
        (toHex (UInt8.ofNat n) &&& 0xf).toNat = hexValue (UInt8.ofNat n)) := by
    unfold IsHex
    decide +kernel
  simpa using h ⟨c.toNat, c.toNat_lt⟩

variable {c : UInt8}

theorem shiftIn_toHex (h : IsHex c) (v : ℕ) :
    shiftIn (UInt32.ofNat v) (toHex c) = UInt32.ofNat (16 * v + hexValue c) := by
  have hc := (toHex_spec c).2 h
  have hlt : hexValue c < 16 := by
    rw [← hc, UInt8.toNat_and]
    exact Nat.lt_of_le_of_lt Nat.and_le_right (by decide)
  have hshift : (v % 2 ^ 32) <<< 4 % 2 ^ 32 = (v % 2 ^ 28) <<< 4 := by
    omega
  apply UInt32.toNat_inj.mp
  rw [shiftIn, UInt32.toNat_or, UInt32.toNat_shiftLeft, UInt8.toNat_toUInt32, hc,
    UInt32.toNat_ofNat', UInt32.toNat_ofNat', show (4 : UInt32).toNat % 32 = 4 from rfl, hshift,
    ← Nat.shiftLeft_add_eq_or_of_lt (by omega), Nat.shiftLeft_eq]
  omega

/-! ## Single characters -/

theorem expect_cons (c : UInt8) (rest : Ptr) : expect c (c :: rest) = .ok rest :=
  if_neg fun h => h rfl

theorem expect_avoids (hb : bad ≠ .refused) (hc : c ≠ 0) (s : List UInt8) :
    Avoids bad (expect c (cStr s)) fun pos => ∃ r, s = c :: r ∧ pos = cStr r := by
  cases s with
  | nil =>
    have hrefused : expect c (cStr []) = .error .refused := if_pos hc.symm
    rw [hrefused]
    exact hb.symm
  | cons x r =>
    by_cases hx : x = c
    · subst hx
      rw [cStr, List.cons_append, expect_cons]
      exact ⟨r, rfl, rfl⟩
    · have hrefused : expect c (cStr (x :: r)) = .error .refused := if_pos hx
      rw [hrefused]
      exact hb.symm

theorem scanColor_append {ds : List UInt8} (h : ∀ d ∈ ds, IsHex d) (v : ℕ) (rest : Ptr) :
    scanColor ds.length (UInt32.ofNat v) (ds ++ rest) =
      .ok (UInt32.ofNat (ds.foldl (fun v c => 16 * v + hexValue c) v), rest) := by
  induction ds generalizing v with
  | nil => rfl
  | cons d ds ih =>
    have hd := h d List.mem_cons_self
    have hnext : scanColor (d :: ds).length (UInt32.ofNat v) (d :: ds ++ rest) =
        scanColor ds.length (shiftIn (UInt32.ofNat v) (toHex d)) (ds ++ rest) :=
      if_pos ((toHex_spec d).1.mpr hd)
    rw [hnext, shiftIn_toHex hd, ih (fun c hc => h c (List.mem_cons_of_mem d hc)), List.foldl_cons]

theorem scanColor_avoids (hb : bad ≠ .refused) (n v : ℕ) (s : List UInt8) :
    Avoids bad (scanColor n (UInt32.ofNat v) (cStr s)) fun x =>
      ∃ ds r, s = ds ++ r ∧ ds.length = n ∧ (∀ d ∈ ds, IsHex d) ∧
        x = (UInt32.ofNat (ds.foldl (fun v c => 16 * v + hexValue c) v), cStr r) := by
  induction n generalizing v s with
  | zero => exact ⟨[], s, rfl, rfl, fun d hd => (nomatch hd), rfl⟩
  | succ n ih =>
    cases s with
    | nil => exact hb.symm
    | cons d s =>
      by_cases hd : IsHex d
      · have hnext : scanColor (n + 1) (UInt32.ofNat v) (cStr (d :: s)) =
            scanColor n (UInt32.ofNat (16 * v + hexValue d)) (cStr s) := by
          rw [← shiftIn_toHex hd]
          exact if_pos ((toHex_spec d).1.mpr hd)
        rw [hnext]
        refine (ih _ s).mono fun x hx => ?_
        obtain ⟨ds, r, rfl, hlen, hds, rfl⟩ := hx
        exact ⟨d :: ds, r, rfl, by rw [List.length_cons, hlen], List.forall_mem_cons.mpr ⟨hd, hds⟩,
          rfl⟩
      · have hrefused : scanColor (n + 1) (UInt32.ofNat v) (cStr (d :: s)) = .error .refused :=
          if_neg fun h => hd ((toHex_spec d).1.mp h)
        rw [hrefused]
        exact hb.symm

/-! ## Runs of characters -/

variable {turn : UInt8 → Turn}

variable {t : List UInt8}

theorem scan_append (ht : ∀ x ∈ t, turn x = .on) (n : ℕ) (rest : Ptr) :
    scan turn (t ++ rest) n = scan turn rest (n + t.length) := by
  induction t generalizing n with
  | nil => rw [List.nil_append, List.length_nil, Nat.add_zero]
  | cons x t ih =>
    rw [List.cons_append, scan, ht x List.mem_cons_self, List.length_cons, Nat.add_comm t.length, ← Nat.add_assoc]
    exact ih (fun y hy => ht y (List.mem_cons_of_mem x hy)) (n + 1)

theorem scan_after (ht : ∀ x ∈ t, turn x = .on) (hc : turn c = .after) (n : ℕ) (rest : Ptr) :
    scan turn (t ++ c :: rest) n = .ok (n + t.length, rest) := by
  rw [scan_append ht, scan, hc]

theorem scan_before (ht : ∀ x ∈ t, turn x = .on) (hc : turn c = .before) (n : ℕ) (rest : Ptr) :
    scan turn (t ++ c :: rest) n = .ok (n + t.length, c :: rest) := by
  rw [scan_append ht, scan, hc]

/-- A loop that stops before a zero stops in every string: after a character, or before one, or at the
end. -/
theorem scan_avoids (hb : bad ≠ .refused) (h₀ : turn 0 = .before) (s : List UInt8) (n : ℕ) :
    Avoids bad (scan turn (cStr s) n) fun x => ∃ t r, x = (n + t.length, cStr r) ∧
      (∀ c ∈ t, turn c = .on) ∧
      ((∃ c, turn c = .after ∧ s = t ++ c :: r) ∨
        (s = t ++ r ∧ ∀ c r', r = c :: r' → turn c = .before)) := by
  induction s generalizing n with
  | nil =>
    simp only [cStr, List.nil_append, scan, h₀]
    exact ⟨[], [], rfl, fun c hc => (nomatch hc), .inr ⟨rfl, fun c r' h => (nomatch h)⟩⟩
  | cons c s ih =>
    rw [cStr, List.cons_append, scan]
    cases hc : turn c with
    | before =>
      refine ⟨[], c :: s, rfl, fun c hc => (nomatch hc), .inr ⟨rfl, fun c' r' h => ?_⟩⟩
      cases h
      exact hc
    | after => exact ⟨[], s, rfl, fun c hc => (nomatch hc), .inl ⟨c, hc, rfl⟩⟩
    | refuse => exact hb.symm
    | on =>
      refine (ih (n + 1)).mono fun x hx => ?_
      obtain ⟨t, r, rfl, ht, hs⟩ := hx
      refine ⟨c :: t, r, by rw [List.length_cons]; congr 1; omega,
        List.forall_mem_cons.mpr ⟨hc, ht⟩, ?_⟩
      obtain ⟨c', hc', rfl⟩ | ⟨rfl, hr⟩ := hs
      · exact .inl ⟨c', hc', rfl⟩
      · exact .inr ⟨rfl, hr⟩

/-! What each loop does at a character. -/

theorem tagTurn_on : tagTurn c = .on ↔ c ≠ 0 ∧ c ≠ pipe ∧ c ≠ colon := by
  unfold tagTurn
  split_ifs <;> simp_all

theorem tagTurn_after (h : tagTurn c = .after) : c = colon := by
  unfold tagTurn at h
  split_ifs at h with h₀ h₁ h₂
  exact h₂

theorem tagTurn_before (h : tagTurn c = .before) : c = 0 ∨ c = pipe := by
  unfold tagTurn at h
  split_ifs at h with h₀ h₁
  · exact .inl h₀
  · exact .inr h₁

theorem dataTurn_on : dataTurn c = .on ↔ c ≠ 0 ∧ c ≠ pipe := by
  unfold dataTurn
  split_ifs <;> simp_all

theorem dataTurn_after (h : dataTurn c = .after) : c = pipe := by
  unfold dataTurn at h
  split_ifs at h with h₀ h₁
  exact h₁

theorem dataTurn_before (h : dataTurn c = .before) : c = 0 := by
  unfold dataTurn at h
  split_ifs at h with h₀
  exact h₀

theorem textTurn_on : textTurn c = .on ↔ c ≠ 0 ∧ c ≠ pipe ∧ c ≠ closeBracket := by
  unfold textTurn
  split_ifs <;> simp_all

theorem textTurn_after (h : textTurn c = .after) : c = closeBracket := by
  unfold textTurn at h
  split_ifs at h with h₀ h₁ h₂
  exact h₂

theorem textTurn_before (h : textTurn c = .before) : c = 0 := by
  unfold textTurn at h
  split_ifs at h with h₀
  exact h₀

/-! ## Links -/

theorem take_scanned (xs ys : List UInt8) : (xs ++ ys).take (0 + xs.length) = xs := by
  rw [Nat.zero_add, List.take_left]

theorem take_cStr (xs ys : List UInt8) : (cStr (xs ++ ys)).take (0 + xs.length) = xs := by
  rw [cStr, List.append_assoc, take_scanned]

theorem cStr_append (xs ys : List UInt8) : cStr (xs ++ ys) = xs ++ cStr ys := List.append_assoc ..

theorem cStr_cons (x : UInt8) (ys : List UInt8) : cStr (x :: ys) = x :: cStr ys := rfl

/-- A string that begins with a link, from its data on. -/
def Link.fromData (l : Link) (rest : List UInt8) : List UInt8 :=
  l.dataBytes ++ pipe :: smallH :: openBracket ::
    (l.text ++ closeBracket :: pipe :: smallH :: pipe :: smallR :: rest)

theorem Link.bytes_append (l : Link) (rest : List UInt8) :
    l.bytes ++ rest =
      pipe :: letterC :: (l.color ++ pipe :: letterH :: (l.tag ++ l.fromData rest)) := by
  simp [Link.bytes, Link.fromData]

/-- **The parser finds a link that the string begins with.** -/
theorem parseHyperlink_append {l : Link} (h : l.WellFormed) {rest : List UInt8}
    (h₀ : 0 ∉ l.bytes ++ rest) :
    ∃ info, parseHyperlink (cStr (l.bytes ++ rest)) = .ok info ∧ l.Told rest info := by
  rw [l.bytes_append] at h₀ ⊢
  simp only [List.mem_cons, List.mem_append, not_or] at h₀
  obtain ⟨-, -, -, -, -, htag₀, hdata₀⟩ := h₀
  have hcolor : ∀ p, scanColor 8 0 (l.color ++ p) = .ok (l.argb, p) := by
    intro p
    have hscan := scanColor_append h.color 0 p
    rw [h.length_color] at hscan
    exact hscan
  have htag : ∀ x ∈ l.tag, tagTurn x = .on := fun x hx => tagTurn_on.mpr
    ⟨fun h' => htag₀ (h' ▸ hx), fun h' => h.tag.1 (h' ▸ hx), fun h' => h.tag.2 (h' ▸ hx)⟩
  have htext₀ : 0 ∉ l.text := fun hx => hdata₀ (by simp [Link.fromData, hx])
  have htext : ∀ x ∈ l.text, textTurn x = .on := fun x hx => textTurn_on.mpr
    ⟨fun h' => htext₀ (h' ▸ hx), fun h' => h.text.1 (h' ▸ hx), fun h' => h.text.2 (h' ▸ hx)⟩
  have hscanText : ∀ p, scan textTurn (l.text ++ closeBracket :: p) 0 = .ok (0 + l.text.length, p) :=
    fun p => scan_after htext rfl 0 p
  cases hdata : l.data with
  | none =>
    have hfrom : l.fromData rest = pipe :: smallH :: openBracket ::
        (l.text ++ closeBracket :: pipe :: smallH :: pipe :: smallR :: rest) := by
      rw [Link.fromData, Link.dataBytes, hdata]
      rfl
    have hscanTag : ∀ p, scan tagTurn (l.tag ++ pipe :: p) 0 = .ok (0 + l.tag.length, pipe :: p) :=
      fun p => scan_before htag rfl 0 p
    have hscanData : ∀ p, scan dataTurn (pipe :: p) 0 = .ok (0, p) :=
      fun p => scan_after (t := []) (fun x hx => nomatch hx) rfl 0 p
    simp only [parseHyperlink, hfrom, cStr_cons, cStr_append, expect_cons, bind, Except.bind, hcolor,
      hscanTag, hscanData, hscanText]
    refine ⟨_, rfl, rfl, rfl, ?_, ?_, ?_⟩
    · exact take_scanned _ _
    · rw [hdata]
      rfl
    · exact take_scanned _ _
  | some data =>
    have hfrom : l.fromData rest = colon :: (data ++ pipe :: smallH :: openBracket ::
        (l.text ++ closeBracket :: pipe :: smallH :: pipe :: smallR :: rest)) := by
      rw [Link.fromData, Link.dataBytes, hdata]
      rfl
    have hdata₁ : 0 ∉ data := fun hx => hdata₀ (by rw [hfrom]; simp [hx])
    have hon : ∀ x ∈ data, dataTurn x = .on := fun x hx => dataTurn_on.mpr
      ⟨fun h' => hdata₁ (h' ▸ hx), fun h' => h.data data (by rw [hdata]; rfl) (h' ▸ hx)⟩
    have hscanTag : ∀ p, scan tagTurn (l.tag ++ colon :: p) 0 = .ok (0 + l.tag.length, p) :=
      fun p => scan_after htag rfl 0 p
    have hscanData : ∀ p, scan dataTurn (data ++ pipe :: p) 0 = .ok (0 + data.length, p) :=
      fun p => scan_after hon rfl 0 p
    simp only [parseHyperlink, hfrom, cStr_cons, cStr_append, expect_cons, bind, Except.bind, hcolor,
      hscanTag, hscanData, hscanText]
    refine ⟨_, rfl, rfl, rfl, ?_, ?_, ?_⟩
    · exact take_scanned _ _
    · rw [hdata]
      exact take_scanned _ _
    · exact take_scanned _ _

/-- **What the parser answers is a link that the string begins with**, and it stops for nothing
but a refusal. -/
theorem parseHyperlink_avoids (hb : bad ≠ .refused) (s : List UInt8) :
    Avoids bad (parseHyperlink (cStr s)) fun info =>
      ∃ l : Link, ∃ rest, l.WellFormed ∧ s = l.bytes ++ rest ∧ l.Told rest info := by
  refine (expect_avoids hb (by decide) s).bind ?_
  rintro _ ⟨s₁, rfl, rfl⟩
  refine (expect_avoids hb (by decide) s₁).bind ?_
  rintro _ ⟨s₂, rfl, rfl⟩
  refine (scanColor_avoids hb 8 0 s₂).bind ?_
  rintro _ ⟨color, s₃, rfl, hlen, hhex, rfl⟩
  refine (expect_avoids hb (by decide) s₃).bind ?_
  rintro _ ⟨s₄, rfl, rfl⟩
  refine (expect_avoids hb (by decide) s₄).bind ?_
  rintro _ ⟨s₅, rfl, rfl⟩
  refine (scan_avoids hb (show tagTurn 0 = .before from rfl) s₅ 0).bind ?_
  rintro _ ⟨tag, s₆, rfl, htag, htagEnd⟩
  refine (scan_avoids hb (show dataTurn 0 = .before from rfl) s₆ 0).bind ?_
  rintro _ ⟨data, s₇, rfl, hdata, hdataEnd⟩
  refine (expect_avoids hb (by decide) s₇).bind ?_
  rintro _ ⟨s₈, rfl, rfl⟩
  refine (expect_avoids hb (by decide) s₈).bind ?_
  rintro _ ⟨s₉, rfl, rfl⟩
  refine (scan_avoids hb (show textTurn 0 = .before from rfl) s₉ 0).bind ?_
  rintro _ ⟨text, s₁₀, rfl, htext, htextEnd⟩
  refine (expect_avoids hb (by decide) s₁₀).bind ?_
  rintro _ ⟨s₁₁, rfl, rfl⟩
  refine (expect_avoids hb (by decide) s₁₁).bind ?_
  rintro _ ⟨s₁₂, rfl, rfl⟩
  refine (expect_avoids hb (by decide) s₁₂).bind ?_
  rintro _ ⟨s₁₃, rfl, rfl⟩
  refine (expect_avoids hb (by decide) s₁₃).bind ?_
  rintro _ ⟨rest, rfl, rfl⟩
  have htagFree : pipe ∉ tag ∧ colon ∉ tag := ⟨fun h => (tagTurn_on.mp (htag _ h)).2.1 rfl,
    fun h => (tagTurn_on.mp (htag _ h)).2.2 rfl⟩
  have hdataFree : pipe ∉ data := fun h => (dataTurn_on.mp (hdata _ h)).2 rfl
  have htextFree : pipe ∉ text ∧ closeBracket ∉ text :=
    ⟨fun h => (textTurn_on.mp (htext _ h)).2.1 rfl, fun h => (textTurn_on.mp (htext _ h)).2.2 rfl⟩
  -- what comes after the text and after the data shows how these two loops have stopped
  obtain ⟨c, hc, rfl⟩ | ⟨-, hstop⟩ := htextEnd
  rotate_left
  · exact absurd (textTurn_before (hstop _ _ rfl)) (by decide)
  rw [textTurn_after hc] at hdataEnd ⊢
  obtain ⟨c, hc, rfl⟩ | ⟨-, hstop⟩ := hdataEnd
  rotate_left
  · exact absurd (dataTurn_before (hstop _ _ rfl)) (by decide)
  rw [dataTurn_after hc] at htagEnd ⊢
  obtain ⟨c, hc, rfl⟩ | ⟨rfl, hstop⟩ := htagEnd
  · refine ⟨⟨color, tag, some data, text⟩, rest, ⟨hlen, hhex, htagFree, ?_, htextFree⟩, ?_,
      rfl, rfl, take_cStr _ _, take_cStr _ _, take_cStr _ _⟩
    · rintro _ ⟨⟩
      exact hdataFree
    · rw [Link.bytes_append, Link.fromData, Link.dataBytes, tagTurn_after hc]
      rfl
  · -- the tag has stopped before the pipe, and there is no data
    cases data with
    | nil =>
      refine ⟨⟨color, tag, none, text⟩, rest, ⟨hlen, hhex, htagFree, fun d hd => (nomatch hd), htextFree⟩,
        ?_, rfl, rfl, take_cStr _ _, rfl, take_cStr _ _⟩
      rw [Link.bytes_append, Link.fromData, Link.dataBytes, List.nil_append]
    | cons x data =>
      have hx := dataTurn_on.mp (hdata x List.mem_cons_self)
      exact ((tagTurn_before (hstop x _ rfl)).elim hx.1 hx.2).elim

end Sunstrider.Chat
