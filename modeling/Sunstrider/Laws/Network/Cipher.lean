import Sunstrider.Lib.Feedback
import Sunstrider.Network.AuthCrypt

/-!
# The two ends of a line stay in step

Both loops of the cipher run the one code `headerCode`, whose state is the running index into the key and
the byte of the code before. The receiving half of one end thus goes with the sending half of the other
(`headers_in_step`), however the headers of the two directions are mixed. The sockets' `Cipher243` has
natural numbers for indices, and no call tells it from the cipher of the source (`answers_ofDigest`).
-/

namespace Sunstrider.Network

open Sunstrider.Lib (FeedbackCode)

namespace KeyedCipher

variable {c : KeyedCipher}

/-- The index into the key, and the byte of the code before. -/
abbrev Half : Type := UInt8 × UInt8

def sendHalf (c : KeyedCipher) : Half := (c.sendI, c.sendJ)

def recvHalf (c : KeyedCipher) : Half := (c.recvI, c.recvJ)

def withSend (c : KeyedCipher) (h : Half) : KeyedCipher := { c with sendI := h.1, sendJ := h.2 }

def withRecv (c : KeyedCipher) (h : Half) : KeyedCipher := { c with recvI := h.1, recvJ := h.2 }

/-- One byte of a header, under the key of the cipher. -/
def headerCode (c : KeyedCipher) : FeedbackCode Half UInt8 UInt8 where
  code h d := (d ^^^ c.keyAt (c.wrap h.1)) + h.2
  plain h x := (x - h.2) ^^^ c.keyAt (c.wrap h.1)
  next h x := (c.wrap h.1 + 1, x)
  plain_code h d := by rw [UInt8.add_sub_cancel, UInt8.xor_assoc, UInt8.xor_self, UInt8.xor_zero]
  code_plain h x := by rw [UInt8.xor_assoc, UInt8.xor_self, UInt8.xor_zero, UInt8.sub_add_cancel]

/-! The code depends on the key alone. -/

@[simp] theorem headerCode_withSend (h : Half) : (c.withSend h).headerCode = c.headerCode := rfl

@[simp] theorem headerCode_withRecv (h : Half) : (c.withRecv h).headerCode = c.headerCode := rfl

@[simp] theorem headerCode_peer : c.peer.headerCode = c.headerCode := rfl

@[simp] theorem sendHalf_withSend (h : Half) : (c.withSend h).sendHalf = h := rfl

@[simp] theorem recvHalf_withSend (h : Half) : (c.withSend h).recvHalf = c.recvHalf := rfl

@[simp] theorem recvHalf_withRecv (h : Half) : (c.withRecv h).recvHalf = h := rfl

@[simp] theorem sendHalf_withRecv (h : Half) : (c.withRecv h).sendHalf = c.sendHalf := rfl

@[simp] theorem sendHalf_peer : c.peer.sendHalf = c.recvHalf := rfl

@[simp] theorem recvHalf_peer : c.peer.recvHalf = c.sendHalf := rfl

/-- The loop of `EncryptSend` encodes with the sending half. -/
theorem encrypt_eq (c : KeyedCipher) (data : List UInt8) :
    c.encrypt data =
      ((c.headerCode.encode c.sendHalf data).1,
        c.withSend (c.headerCode.encode c.sendHalf data).2) := by
  induction data generalizing c with
  | nil => rfl
  | cons d data ih => rw [encrypt, ih]; rfl

/-- The loop of `DecryptRecv` decodes with the receiving half. -/
theorem decrypt_eq (c : KeyedCipher) (data : List UInt8) :
    c.decrypt data =
      ((c.headerCode.decode c.recvHalf data).1,
        c.withRecv (c.headerCode.decode c.recvHalf data).2) := by
  induction data generalizing c with
  | nil => rfl
  | cons d data ih => rw [decrypt, ih]; rfl

/-! ## Whole headers -/

theorem encryptSend_header (c : KeyedCipher) (data : Vector UInt8 4) :
    c.encryptSend data.toList = c.encrypt data.toList := by
  have hlen : data.toList.length = 4 := data.length_toList
  rw [encryptSend, if_neg (by rw [hlen]; decide), List.take_of_length_le (by rw [hlen]; decide),
    List.drop_of_length_le (by rw [hlen]; decide)]
  exact Prod.ext (List.append_nil _) rfl

theorem decryptRecv_header (c : KeyedCipher) (data : Vector UInt8 6) :
    c.decryptRecv data.toList = c.decrypt data.toList := by
  have hlen : data.toList.length = 6 := data.length_toList
  rw [decryptRecv, if_neg (by rw [hlen]; decide), List.take_of_length_le (by rw [hlen]; decide),
    List.drop_of_length_le (by rw [hlen]; decide)]
  exact Prod.ext (List.append_nil _) rfl

/-- Sending anything keeps the key and the receiving half. -/
theorem encryptSend_frame (c : KeyedCipher) (data : List UInt8) :
    (c.encryptSend data).2.key = c.key ∧ (c.encryptSend data).2.recvHalf = c.recvHalf := by
  rw [encryptSend]
  split
  · exact ⟨rfl, rfl⟩
  · rw [encrypt_eq]
    exact ⟨rfl, rfl⟩

/-- Receiving anything keeps the key and the sending half. -/
theorem decryptRecv_frame (c : KeyedCipher) (data : List UInt8) :
    (c.decryptRecv data).2.key = c.key ∧ (c.decryptRecv data).2.sendHalf = c.sendHalf := by
  rw [decryptRecv]
  split
  · exact ⟨rfl, rfl⟩
  · rw [decrypt_eq]
    exact ⟨rfl, rfl⟩

/-! ## Any mix of headers -/

/-- The bytes of the two directions, in the clear and in the code. -/
structure Traffic where
  sentPlain : List UInt8
  sentCode : List UInt8
  receivedCode : List UInt8
  receivedPlain : List UInt8

/-- The cipher deals with one header after another. -/
def feed : KeyedCipher → List Header → Traffic × KeyedCipher
  | c, [] => (⟨[], [], [], []⟩, c)
  | c, .sent data :: headers =>
    let x := c.encryptSend data.toList
    let r := feed x.2 headers
    ({ r.1 with
      sentPlain := data.toList ++ r.1.sentPlain
      sentCode := x.1 ++ r.1.sentCode }, r.2)
  | c, .received data :: headers =>
    let x := c.decryptRecv data.toList
    let r := feed x.2 headers
    ({ r.1 with
      receivedCode := data.toList ++ r.1.receivedCode
      receivedPlain := x.1 ++ r.1.receivedPlain }, r.2)

/-- The two directions are coded apart from one another, each as one stream. -/
theorem feed_eq (c : KeyedCipher) (headers : List Header) :
    c.headerCode.encode c.sendHalf (c.feed headers).1.sentPlain =
        ((c.feed headers).1.sentCode, (c.feed headers).2.sendHalf) ∧
      c.headerCode.decode c.recvHalf (c.feed headers).1.receivedCode =
        ((c.feed headers).1.receivedPlain, (c.feed headers).2.recvHalf) := by
  induction headers generalizing c with
  | nil => exact ⟨rfl, rfl⟩
  | cons header headers ih =>
    cases header with
    | sent data =>
      have hrest := ih (c.withSend (c.headerCode.encode c.sendHalf data.toList).2)
      simp only [headerCode_withSend, sendHalf_withSend, recvHalf_withSend] at hrest
      simp [feed, encryptSend_header, encrypt_eq, FeedbackCode.encode_append, hrest]
    | received data =>
      have hrest := ih (c.withRecv (c.headerCode.decode c.recvHalf data.toList).2)
      simp only [headerCode_withRecv, sendHalf_withRecv, recvHalf_withRecv] at hrest
      simp [feed, decryptRecv_header, decrypt_eq, FeedbackCode.decode_append, hrest]

/-- **Header encryption stays in step.** Of every mix of headers, the peer recovers the bytes that were
sent and has coded the bytes that were received, and ends with the index and the previous byte of this
end. Neither direction changes the state of the other. -/
theorem headers_in_step (c : KeyedCipher) (headers : List Header) :
    c.peer.decrypt (c.feed headers).1.sentCode =
        ((c.feed headers).1.sentPlain, c.peer.withRecv (c.feed headers).2.sendHalf) ∧
      c.peer.encrypt (c.feed headers).1.receivedPlain =
        ((c.feed headers).1.receivedCode, c.peer.withSend (c.feed headers).2.recvHalf) ∧
      (∀ data, (c.encryptSend data).2.recvHalf = c.recvHalf) ∧
      (∀ data, (c.decryptRecv data).2.sendHalf = c.sendHalf) := by
  obtain ⟨hsend, hrecv⟩ := feed_eq c headers
  have hdecode := c.headerCode.decode_encode c.sendHalf (c.feed headers).1.sentPlain
  have hencode := c.headerCode.encode_decode c.recvHalf (c.feed headers).1.receivedCode
  rw [hsend] at hdecode
  rw [hrecv] at hencode
  refine ⟨?_, ?_, fun data => (encryptSend_frame c data).2, fun data => (decryptRecv_frame c data).2⟩
  · rw [decrypt_eq, headerCode_peer, recvHalf_peer, hdecode]
  · rw [encrypt_eq, headerCode_peer, sendHalf_peer, hencode]

/-! ## The key of a digest -/

section Digest

variable {σ : Type} [ARC4 σ] {c : Cipher243}

/-- The cipher of a session, with the indices as the bytes that they are in the source. -/
def ofDigest (c : Cipher243) : KeyedCipher where
  key := c.key.toList
  key_ne := List.ne_nil_of_length_pos (by simp)
  sendI := .ofNat c.sendI
  sendJ := c.sendJ
  recvI := .ofNat c.recvI
  recvJ := c.recvJ

theorem ofDigest_wrap {i : ℕ} (hi : i ≤ 20) : (ofDigest c).wrap (.ofNat i) = .ofNat (i % 20) := by
  have hbyte : (UInt8.ofNat i).toNat = i := UInt8.toNat_ofNat_of_lt' (by change i < 256; omega)
  rw [wrap, hbyte]
  simp [ofDigest]

theorem ofDigest_keyAt (i : ℕ) :
    (ofDigest c).keyAt (.ofNat (i % 20)) = c.key.getD (i % 20) 0 := by
  have hlt : i % 20 < 20 := Nat.mod_lt _ (by decide)
  have hbyte : (UInt8.ofNat (i % 20)).toNat = i % 20 := UInt8.toNat_ofNat_of_lt' (by change i % 20 < 256; omega)
  rw [keyAt, hbyte]
  simp [ofDigest, Vector.getD, hlt]

/-- The indices of the two directions are in range. -/
def InRange (c : Cipher243) : Prop := c.sendI ≤ 20 ∧ c.recvI ≤ 20

theorem encrypt_ofDigest (hc : InRange c) (data : List UInt8) :
    (ofDigest c).encrypt data = ((c.encrypt data).1, ofDigest (c.encrypt data).2) ∧
      InRange (c.encrypt data).2 := by
  induction data generalizing c with
  | nil => exact ⟨rfl, hc⟩
  | cons d data ih =>
    have hlt : c.sendI % 20 < 20 := Nat.mod_lt _ (by decide)
    obtain ⟨hrest, hrange⟩ := @ih { c with
      sendI := c.sendI % 20 + 1
      sendJ := (d ^^^ c.key.getD (c.sendI % 20) 0) + c.sendJ } ⟨hlt, hc.2⟩
    refine ⟨?_, hrange⟩
    have hwrap : (ofDigest c).wrap (ofDigest c).sendI = .ofNat (c.sendI % 20) := ofDigest_wrap hc.1
    rw [encrypt, hwrap, ofDigest_keyAt]
    have hnext : UInt8.ofNat (c.sendI % 20) + 1 = .ofNat (c.sendI % 20 + 1) := by simp
    rw [hnext]
    exact congrArg (fun r : List UInt8 × KeyedCipher => (_ :: r.1, r.2)) hrest

theorem decrypt_ofDigest (hc : InRange c) (data : List UInt8) :
    (ofDigest c).decrypt data = ((c.decrypt data).1, ofDigest (c.decrypt data).2) ∧
      InRange (c.decrypt data).2 := by
  induction data generalizing c with
  | nil => exact ⟨rfl, hc⟩
  | cons d data ih =>
    have hlt : c.recvI % 20 < 20 := Nat.mod_lt _ (by decide)
    obtain ⟨hrest, hrange⟩ := @ih { c with recvI := c.recvI % 20 + 1, recvJ := d } ⟨hc.1, hlt⟩
    refine ⟨?_, hrange⟩
    have hwrap : (ofDigest c).wrap (ofDigest c).recvI = .ofNat (c.recvI % 20) := ofDigest_wrap hc.2
    rw [decrypt, hwrap, ofDigest_keyAt]
    have hnext : UInt8.ofNat (c.recvI % 20) + 1 = .ofNat (c.recvI % 20 + 1) := by simp
    rw [hnext]
    exact congrArg (fun r : List UInt8 × KeyedCipher => (_ :: r.1, r.2)) hrest

/-- A call of a cipher. `DecryptRecv` gets so few bytes that it leaves them alone, or as many as its loop
is over. -/
inductive Call
  | encryptSend (data : List UInt8)
  | decryptRecv (data : List UInt8)
      (inside : data.length < cryptedSendLen ∨ cryptedRecvLen ≤ data.length)

/-- What a cipher answers to a sequence of calls. -/
def answers {S : Type} (encryptSend decryptRecv : S → List UInt8 → List UInt8 × S) :
    S → List Call → List (List UInt8)
  | _, [] => []
  | s, .encryptSend data :: calls =>
    let x := encryptSend s data
    x.1 :: answers encryptSend decryptRecv x.2 calls
  | s, .decryptRecv data _ :: calls =>
    let x := decryptRecv s data
    x.1 :: answers encryptSend decryptRecv x.2 calls

/-- **The indices of a session's cipher never wrap.** Whatever it is called for, it answers as the cipher
whose indices are bytes. -/
theorem answers_ofDigest (key : Vector UInt8 20) (calls : List Call) :
    answers AuthCrypt.encryptSend AuthCrypt.decryptRecv (.build243 (.init key) : AuthCrypt σ) calls =
      answers encryptSend decryptRecv (ofDigest (.init key)) calls := by
  have hrun (c : Cipher243) (hc : InRange c) :
      answers AuthCrypt.encryptSend AuthCrypt.decryptRecv (.build243 c : AuthCrypt σ) calls =
        answers encryptSend decryptRecv (ofDigest c) calls := by
    induction calls generalizing c with
    | nil => rfl
    | cons call calls ih =>
      cases call with
      | encryptSend data =>
        obtain ⟨hsame, hrange⟩ := encrypt_ofDigest hc (data.take cryptedSendLen)
        simp only [answers, AuthCrypt.encryptSend, encryptSend, hsame]
        split
        · rw [ih c hc]
        · rw [ih _ hrange]
      | decryptRecv data inside =>
        obtain ⟨hsame, hrange⟩ := decrypt_ofDigest hc (data.take cryptedRecvLen)
        simp only [answers, AuthCrypt.decryptRecv, decryptRecv, hsame]
        split
        · rw [ih c hc]
        · rw [ih _ hrange]
  exact hrun _ ⟨Nat.zero_le _, Nat.zero_le _⟩

end Digest

end KeyedCipher

end Sunstrider.Network
