import Mathlib.Data.List.Basic

/-!
# The cipher of the headers

`AuthCrypt.cpp`. Each build of the client has a cipher of its own. The one of build 335 is ARC4, whose
rounds are done by a cryptographic library: `ARC4` says of them only that they replace bytes in place.
-/

namespace Sunstrider.Network

/-- A state of `ARC4`, from the outside. -/
class ARC4 (σ : Type) where
  updateData : σ → List UInt8 → List UInt8 × σ
  length_updateData : ∀ s data, (updateData s data).1.length = data.length

/-- Where no client has build 335, there is no such state. -/
instance : ARC4 Empty where
  updateData s _ := nomatch s
  length_updateData s _ := nomatch s

def cryptedSendLen : ℕ := 4

def cryptedRecvLen : ℕ := 6

/-- What `Init` sets up for build 243. -/
structure Cipher243 where
  key : Vector UInt8 20
  sendI : ℕ
  sendJ : UInt8
  recvI : ℕ
  recvJ : UInt8
  deriving DecidableEq

namespace Cipher243

/-- `Init`, with the key that it has hashed. -/
def init (key : Vector UInt8 20) : Cipher243 := ⟨key, 0, 0, 0, 0⟩

/-- The loop of `DecryptRecv`. -/
def decrypt : Cipher243 → List UInt8 → List UInt8 × Cipher243
  | c, [] => ([], c)
  | c, d :: data =>
    let recvI := c.recvI % 20
    let x := (d - c.recvJ) ^^^ c.key.getD recvI 0
    let next := decrypt { c with recvI := recvI + 1, recvJ := d } data
    (x :: next.1, next.2)

/-- The loop of `EncryptSend`. -/
def encrypt : Cipher243 → List UInt8 → List UInt8 × Cipher243
  | c, [] => ([], c)
  | c, d :: data =>
    let sendI := c.sendI % 20
    let x := (d ^^^ c.key.getD sendI 0) + c.sendJ
    let next := encrypt { c with sendI := sendI + 1, sendJ := x } data
    (x :: next.1, next.2)

end Cipher243

/-- `AuthCrypt`. A build for which `Init` sets nothing up stays `uninitialized`. -/
inductive AuthCrypt (σ : Type)
  | uninitialized
  | build243 (cipher : Cipher243)
  | build335 (clientDecrypt serverEncrypt : σ)
  deriving DecidableEq

namespace AuthCrypt

variable {σ : Type} [ARC4 σ]

omit [ARC4 σ] in
def isInitialized : AuthCrypt σ → Bool
  | .uninitialized => false
  | _ => true

/-- `data` is as long as the call says. The loop of build 243 is over 6 bytes behind a guard of 4: on 4 or
5 bytes it reads past the data, and here it is over the bytes that there are. Headers have 6. -/
def decryptRecv (c : AuthCrypt σ) (data : List UInt8) : List UInt8 × AuthCrypt σ :=
  match c with
  | .uninitialized => (data, c)
  | .build243 cipher =>
    if data.length < cryptedSendLen then (data, c)
    else
      let x := cipher.decrypt (data.take cryptedRecvLen)
      (x.1 ++ data.drop cryptedRecvLen, .build243 x.2)
  | .build335 clientDecrypt serverEncrypt =>
    let x := ARC4.updateData clientDecrypt data
    (x.1, .build335 x.2 serverEncrypt)

def encryptSend (c : AuthCrypt σ) (data : List UInt8) : List UInt8 × AuthCrypt σ :=
  match c with
  | .uninitialized => (data, c)
  | .build243 cipher =>
    if data.length < cryptedSendLen then (data, c)
    else
      let x := cipher.encrypt (data.take cryptedSendLen)
      (x.1 ++ data.drop cryptedSendLen, .build243 x.2)
  | .build335 clientDecrypt serverEncrypt =>
    let x := ARC4.updateData serverEncrypt data
    (x.1, .build335 clientDecrypt x.2)

end AuthCrypt

/-! ## Keys of any length

`_key` is a vector whose length `Init` sets, and the indices into it are bytes. `Cipher243` is the case
of the 20 bytes of a digest. -/

structure KeyedCipher where
  key : List UInt8
  key_ne : key ≠ []
  sendI : UInt8
  sendJ : UInt8
  recvI : UInt8
  recvJ : UInt8

namespace KeyedCipher

/-- `i %= _key.size()`. -/
def wrap (c : KeyedCipher) (i : UInt8) : UInt8 := UInt8.ofNat (i.toNat % c.key.length)

def keyAt (c : KeyedCipher) (i : UInt8) : UInt8 := c.key.getD i.toNat 0

/-- The loop of `DecryptRecv`. -/
def decrypt : KeyedCipher → List UInt8 → List UInt8 × KeyedCipher
  | c, [] => ([], c)
  | c, d :: data =>
    let recvI := c.wrap c.recvI
    let x := (d - c.recvJ) ^^^ c.keyAt recvI
    let next := decrypt { c with recvI := recvI + 1, recvJ := d } data
    (x :: next.1, next.2)

/-- The loop of `EncryptSend`. -/
def encrypt : KeyedCipher → List UInt8 → List UInt8 × KeyedCipher
  | c, [] => ([], c)
  | c, d :: data =>
    let sendI := c.wrap c.sendI
    let x := (d ^^^ c.keyAt sendI) + c.sendJ
    let next := encrypt { c with sendI := sendI + 1, sendJ := x } data
    (x :: next.1, next.2)

/-- `DecryptRecv`, for build 243 after `Init`, on data that the loop does not read past. -/
def decryptRecv (c : KeyedCipher) (data : List UInt8) : List UInt8 × KeyedCipher :=
  if data.length < cryptedSendLen then (data, c)
  else
    let x := c.decrypt (data.take cryptedRecvLen)
    (x.1 ++ data.drop cryptedRecvLen, x.2)

/-- `EncryptSend`, for build 243 after `Init`. -/
def encryptSend (c : KeyedCipher) (data : List UInt8) : List UInt8 × KeyedCipher :=
  if data.length < cryptedSendLen then (data, c)
  else
    let x := c.encrypt (data.take cryptedSendLen)
    (x.1 ++ data.drop cryptedSendLen, x.2)

/-- The cipher at the other end of the line, which receives what this one sends. -/
def peer (c : KeyedCipher) : KeyedCipher :=
  { c with sendI := c.recvI, sendJ := c.recvJ, recvI := c.sendI, recvJ := c.sendJ }

end KeyedCipher

/-- What is fed to a cipher: the header of a packet to send, or one received. -/
inductive Header
  | sent (data : Vector UInt8 4)
  | received (data : Vector UInt8 6)

end Sunstrider.Network
