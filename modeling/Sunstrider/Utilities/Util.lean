import Mathlib.Algebra.Group.Nat.Defs
import Mathlib.Data.List.Basic

/-!
# Words, durations and tokens

`Util.cpp`: the stem of a declined name, durations as text, and the tokens of a text. A string is the list of its
characters.
-/

namespace Sunstrider.Utilities

/-! ## Stems of names -/

/-- `wchar_t`. -/
abbrev WChar : Type := UInt32

def isCyrillicCharacter (wchar : WChar) : Bool :=
  (0x0410 ≤ wchar && wchar ≤ 0x044F) || wchar == 0x0401 || wchar == 0x0451

/-- An ending, after the field for its length. -/
structure DropEnd where
  len : ℕ
  text : List WChar
  deriving DecidableEq

def aEnd : DropEnd := ⟨1, [0x0430]⟩
def oEnd : DropEnd := ⟨1, [0x043E]⟩
def yaEnd : DropEnd := ⟨1, [0x044F]⟩
def ieEnd : DropEnd := ⟨1, [0x0435]⟩
def iEnd : DropEnd := ⟨1, [0x0438]⟩
def yeruEnd : DropEnd := ⟨1, [0x044B]⟩
def uEnd : DropEnd := ⟨1, [0x0443]⟩
def yuEnd : DropEnd := ⟨1, [0x044E]⟩
def ojEnd : DropEnd := ⟨2, [0x043E, 0x0439]⟩
def ieJEnd : DropEnd := ⟨2, [0x0435, 0x0439]⟩
def ioJEnd : DropEnd := ⟨2, [0x0451, 0x0439]⟩
def oMEnd : DropEnd := ⟨2, [0x043E, 0x043C]⟩
def ioMEnd : DropEnd := ⟨2, [0x0451, 0x043C]⟩
def ieMEnd : DropEnd := ⟨2, [0x0435, 0x043C]⟩
def softEnd : DropEnd := ⟨1, [0x044C]⟩
def jEnd : DropEnd := ⟨1, [0x0439]⟩

/-- The rows of `dropEnds`, up to their `nullptr`. -/
def dropEnds (declension : UInt32) : List DropEnd :=
  match declension with
  | 0 => [aEnd, oEnd, yaEnd, ieEnd, softEnd, jEnd]
  | 1 => [aEnd, yaEnd, yeruEnd, iEnd]
  | 2 => [ieEnd, uEnd, yuEnd, iEnd]
  | 3 => [uEnd, yuEnd, oEnd, ieEnd, softEnd, yaEnd, aEnd]
  | 4 => [ojEnd, ioJEnd, ieJEnd, oMEnd, ioMEnd, ieMEnd, yuEnd]
  | 5 => [ieEnd, iEnd]
  | _ => []

/-- `wname.size() - len`, as `size_t`. -/
def sizeMinus (wname : List WChar) (len : ℕ) : ℕ :=
  if len ≤ wname.length then wname.length - len else 2 ^ 64 - (len - wname.length)

/-- `std::wstring::substr`, which throws where the position is behind the end. -/
def substr (wname : List WChar) (pos len : ℕ) : Option (List WChar) :=
  if wname.length < pos then none else some ((wname.drop pos).take len)

/-- The loop over the endings of a declension. -/
def dropEnd (wname : List WChar) : List DropEnd → Option (List WChar)
  | [] => some wname
  | e :: ends => do
    let tail ← substr wname (sizeMinus wname e.len) e.len
    if tail = e.text then substr wname 0 (sizeMinus wname e.len) else dropEnd wname ends

def getMainPartOfName (wname : List WChar) (declension : UInt32) : Option (List WChar) :=
  -- supported only Cyrillic cases
  match wname with
  | [] => some wname
  | first :: _ =>
    if !isCyrillicCharacter first || declension > 5 then some wname
    else dropEnd wname (dropEnds declension)

/-! ## Durations -/

/-- A number, as a stream prints it. -/
def digits (n : UInt32) : List Char := Nat.toDigits 10 n.toNat

def secsToTimeString (timeInSecs : UInt32) (shortText hoursOnly : Bool) : List Char :=
  let secs := timeInSecs % 60
  let minutes := timeInSecs % 3600 / 60
  let hours := timeInSecs % 86400 / 3600
  let days := timeInSecs / 86400
  (if days ≠ 0 then digits days ++ if shortText then ['d'] else " Day(s) ".toList else []) ++
  (if hours ≠ 0 ∨ hoursOnly then digits hours ++ if shortText then ['h'] else " Hour(s) ".toList else []) ++
  if hoursOnly then []
  else
    (if minutes ≠ 0 then digits minutes ++ if shortText then ['m'] else " Minute(s) ".toList else []) ++
    if secs ≠ 0 ∨ (days = 0 ∧ hours = 0 ∧ minutes = 0) then
      digits secs ++ if shortText then ['s'] else " Second(s).".toList
    else []

/-- The multiplier of a unit. -/
def multiplier : Char → Option UInt32
  | 'd' => some 86400
  | 'h' => some 3600
  | 'm' => some 60
  | 's' => some 1
  | _ => none

structure TimeScan where
  secs : UInt32
  buffer : UInt32

/-- One character of `TimeStringToSecs`, or a bad format. -/
def TimeScan.read (st : TimeScan) (c : Char) : Option TimeScan :=
  if c.isDigit then some { st with buffer := st.buffer * 10 + (c.val - '0'.val) }
  else (multiplier c).map fun m => ⟨st.secs + st.buffer * m, 0⟩

def TimeScan.run (st : TimeScan) : List Char → UInt32
  | [] => st.secs
  | c :: cs =>
    match st.read c with
    | none => 0
    | some st => st.run cs

def timeStringToSecs (timestring : List Char) : UInt32 := TimeScan.run ⟨0, 0⟩ timestring

/-! ## Tokens -/

/-- `Tokenizer`, with the characters since the last separator. It stops at the end of the C string. -/
def tokenizer (sep : Char) (token : List Char) : List Char → List (List Char)
  | [] => if token = [] then [] else [token]
  | c :: cs =>
    if c = sep then token :: tokenizer sep [] cs
    else if c = '\x00' then if token = [] then [] else [token]
    else tokenizer sep (token ++ [c]) cs

def isSpace (c : Char) : Bool := c = ' ' || (9 ≤ c.toNat && c.toNat ≤ 13)

/-- The number that a text starts with. -/
def leadingNumber (str : List Char) : ℕ := Nat.ofDigitChars 10 (str.takeWhile Char.isDigit) 0

/-- `ULONG_MAX`, which also stands for any greater number. -/
def ulongMax : ℕ := 2 ^ 64 - 1

/-- `strtoul`, of base 10. -/
def strtoul (str : List Char) : UInt64 :=
  match str.dropWhile isSpace with
  | '-' :: digits =>
    if ulongMax < leadingNumber digits then .ofNat ulongMax else -.ofNat (leadingNumber digits)
  | '+' :: digits => .ofNat (min ulongMax (leadingNumber digits))
  | digits => .ofNat (min ulongMax (leadingNumber digits))

/-- `atoul`, as a `uint32`. -/
def atoul (str : List Char) : UInt32 := (strtoul str).toUInt32

end Sunstrider.Utilities
