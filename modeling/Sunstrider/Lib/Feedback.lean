import Mathlib.Data.List.Basic

/-!
# Stream codes with feedback

A code that replaces the symbols of a stream one by one, with a state that follows the symbols of the
code. Whoever writes the code and whoever reads it see the same symbols, so their states go the same way:
decoding is the inverse of encoding, and both end in the same state (`decode_encode`, `encode_decode`).
A stream may be cut at will (`encode_append`, `decode_append`).
-/

namespace Sunstrider.Lib

structure FeedbackCode (σ α β : Type) where
  code : σ → α → β
  plain : σ → β → α
  /-- The state after a symbol of the code. -/
  next : σ → β → σ
  plain_code : ∀ s a, plain s (code s a) = a
  code_plain : ∀ s b, code s (plain s b) = b

namespace FeedbackCode

variable {σ α β : Type} (f : FeedbackCode σ α β)

def encode : σ → List α → List β × σ
  | s, [] => ([], s)
  | s, a :: as =>
    let r := encode (f.next s (f.code s a)) as
    (f.code s a :: r.1, r.2)

def decode : σ → List β → List α × σ
  | s, [] => ([], s)
  | s, b :: bs =>
    let r := decode (f.next s b) bs
    (f.plain s b :: r.1, r.2)

theorem decode_encode (s : σ) (as : List α) :
    f.decode s (f.encode s as).1 = (as, (f.encode s as).2) := by
  induction as generalizing s with
  | nil => rfl
  | cons a as ih => simp only [encode, decode, ih, f.plain_code]

theorem encode_decode (s : σ) (bs : List β) :
    f.encode s (f.decode s bs).1 = (bs, (f.decode s bs).2) := by
  induction bs generalizing s with
  | nil => rfl
  | cons b bs ih => simp only [encode, decode, f.code_plain, ih]

theorem encode_append (s : σ) (as as' : List α) :
    f.encode s (as ++ as') =
      ((f.encode s as).1 ++ (f.encode (f.encode s as).2 as').1,
        (f.encode (f.encode s as).2 as').2) := by
  induction as generalizing s with
  | nil => rfl
  | cons a as ih => simp only [List.cons_append, encode, ih]

theorem decode_append (s : σ) (bs bs' : List β) :
    f.decode s (bs ++ bs') =
      ((f.decode s bs).1 ++ (f.decode (f.decode s bs).2 bs').1,
        (f.decode (f.decode s bs).2 bs').2) := by
  induction bs generalizing s with
  | nil => rfl
  | cons b bs ih => simp only [List.cons_append, decode, ih]

end FeedbackCode

end Sunstrider.Lib
