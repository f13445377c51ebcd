import Mathlib.Data.List.Basic

/-!
# Hyperlinks in chat messages

`Hyperlinks.cpp`, for the build of the server that does not define `LICH_KING`. A pointer into a string
is what is left of the string there, with the terminating zero as its last byte, so that a read past the
end is a read of the empty list.

`LinkTags` and the link validators are what a `Validators` says. `StoreTo` reads a value from the data
alone, and so what a validator asks of the value it asks here of the data.
-/

namespace Sunstrider.Chat

/-- Why a scan stops. -/
inductive Stop
  /-- A read past the terminating zero. -/
  | pastTheEnd
  /-- A loop that does not come to its end. -/
  | endless
  /-- `return nullptr`. -/
  | refused
  deriving DecidableEq

/-- `char const*`. -/
abbrev Ptr : Type := List UInt8

def pipe : UInt8 := '|'.toUInt8
def colon : UInt8 := ':'.toUInt8
def openBracket : UInt8 := '['.toUInt8
def closeBracket : UInt8 := ']'.toUInt8
def letterC : UInt8 := 'c'.toUInt8
def letterH : UInt8 := 'H'.toUInt8
def smallH : UInt8 := 'h'.toUInt8
def smallR : UInt8 := 'r'.toUInt8

/-- `c_str()`. -/
def cStr (str : List UInt8) : Ptr := str ++ [0]

/-- `*(pos++)`. -/
def advance : Ptr → Except Stop (UInt8 × Ptr)
  | [] => .error .pastTheEnd
  | c :: rest => .ok (c, rest)

/-- `if (*(pos++) != c) return nullptr;` -/
def expect (c : UInt8) (pos : Ptr) : Except Stop Ptr := do
  let (x, pos) ← advance pos
  if x ≠ c then .error .refused else .ok pos

def toHex (c : UInt8) : UInt8 :=
  if '0'.toUInt8 ≤ c ∧ c ≤ '9'.toUInt8 then c - '0'.toUInt8 + 0x10
  else if 'a'.toUInt8 ≤ c ∧ c ≤ 'f'.toUInt8 then c - 'a'.toUInt8 + 0x1a
  else 0x00

/-- One hex digit more. -/
def shiftIn (color : UInt32) (hex : UInt8) : UInt32 := (color <<< 4) ||| (hex &&& 0xf).toUInt32

/-- The loop over the digits of the colour. -/
def scanColor : ℕ → UInt32 → Ptr → Except Stop (UInt32 × Ptr)
  | 0, color, pos => .ok (color, pos)
  | n + 1, color, pos => do
    let (c, pos) ← advance pos
    let hex := toHex c
    if hex ≠ 0 then scanColor n (shiftIn color hex) pos else .error .refused

/-- What a loop over characters does at one of them: it stops before or after it, refuses the link, or
counts the character and goes on. -/
inductive Turn
  | before
  | after
  | refuse
  | on
  deriving DecidableEq

/-- Such a loop, with the length that it has counted. -/
def scan (turn : UInt8 → Turn) : Ptr → ℕ → Except Stop (ℕ × Ptr)
  | [], _ => .error .pastTheEnd
  | c :: rest, length =>
    match turn c with
    | .before => .ok (length, c :: rest)
    | .after => .ok (length, rest)
    | .refuse => .error .refused
    | .on => scan turn rest (length + 1)

/-- `while (*pos && *pos != '|' && *(pos++) != ':') ++tagLength;` -/
def tagTurn (c : UInt8) : Turn :=
  if c = 0 then .before else if c = pipe then .before else if c = colon then .after else .on

/-- `while (*pos && *(pos++) != '|') ++dataLength;` -/
def dataTurn (c : UInt8) : Turn :=
  if c = 0 then .before else if c = pipe then .after else .on

/-- The loop up to the next bracket, which aborts on a pipe. -/
def textTurn (c : UInt8) : Turn :=
  if c = 0 then .before else if c = pipe then .refuse else if c = closeBracket then .after else .on

/-- `HyperlinkInfo`. Tag, data and text are each a pointer and a length. -/
structure HyperlinkInfo where
  next : Ptr
  color : UInt32
  tag : Ptr × ℕ
  data : Ptr × ℕ
  text : Ptr × ℕ
  deriving DecidableEq

def parseHyperlink (pos : Ptr) : Except Stop HyperlinkInfo := do
  -- color tag
  let pos ← expect pipe pos
  let pos ← expect letterC pos
  let (color, pos) ← scanColor 8 0 pos
  -- link data start tag
  let pos ← expect pipe pos
  let pos ← expect letterH pos
  let tagStart := pos
  let (tagLength, pos) ← scan tagTurn pos 0
  let dataStart := pos
  let (dataLength, pos) ← scan dataTurn pos 0
  -- link data end tag
  let pos ← expect smallH pos
  let pos ← expect openBracket pos
  let textStart := pos
  let (textLength, pos) ← scan textTurn pos 0
  -- link end tag
  let pos ← expect pipe pos
  let pos ← expect smallH pos
  let pos ← expect pipe pos
  let pos ← expect smallR pos
  .ok ⟨pos, color, (tagStart, tagLength), (dataStart, dataLength), (textStart, textLength)⟩

/-! ## Validation -/

/-- `LinkTags`. -/
inductive LinkTag
  | talent | area | areatrigger | creature | creatureEntry | gameevent | gameobject | gameobjectEntry
  | item | itemset | player | quest | skill | spell | taxinode | tele | title
  deriving DecidableEq

/-- `tag()`. -/
def LinkTag.tag : LinkTag → String
  | .talent => "talent"
  | .area => "area"
  | .areatrigger => "areatrigger"
  | .creature => "creature"
  | .creatureEntry => "creature_entry"
  | .gameevent => "gameevent"
  | .gameobject => "gameobject"
  | .gameobjectEntry => "gameobject_entry"
  | .item => "item"
  | .itemset => "itemset"
  | .player => "player"
  | .quest => "quest"
  | .skill => "skill"
  | .spell => "spell"
  | .taxinode => "taxinode"
  | .tele => "tele"
  | .title => "title"

/-- The tags in the order in which `ValidateLinkInfo` tries them. -/
def linkTags : List LinkTag :=
  [.talent, .area, .areatrigger, .creature, .creatureEntry, .gameevent, .gameobject, .gameobjectEntry,
    .item, .itemset, .player, .quest, .skill, .spell, .taxinode, .tele, .title]

/-- What the server says of links. -/
structure Validators where
  /-- `StoreTo` succeeds. -/
  storeTo : LinkTag → List UInt8 → Bool
  isColorValid : LinkTag → List UInt8 → UInt32 → Bool
  isTextValid : LinkTag → List UInt8 → List UInt8 → Bool
  /-- `CONFIG_CHAT_STRICT_LINK_CHECKING_SEVERITY`. -/
  strictLinkCheckingSeverity : ℕ

namespace Validators

/-- `TryValidateAs`, once the tag is the one of the link. -/
def validateAs (v : Validators) (t : LinkTag) (color : UInt32) (data text : List UInt8) : Bool :=
  v.storeTo t data && v.isColorValid t data color &&
    (v.strictLinkCheckingSeverity == 0 || v.isTextValid t data text)

/-- `ValidateLinkInfo`, of the strings that the link points at. -/
def validates (v : Validators) (color : UInt32) (tag data text : List UInt8) : Bool :=
  match linkTags.find? fun t => tag = t.tag.toUTF8.toList with
  | some t => v.validateAs t color data text
  | none => false

def validateLinkInfo (v : Validators) (info : HyperlinkInfo) : Bool :=
  v.validates info.color (info.tag.1.take info.tag.2) (info.data.1.take info.data.2)
    (info.text.1.take info.text.2)

end Validators

/-! ## Whole messages -/

/-- `str.find('|', pos)`. -/
def findPipe : Ptr → Option Ptr
  | [] => none
  | c :: rest => if c = pipe then some (c :: rest) else findPipe rest

/-- `str[pos + 1]`. -/
def charAfter (pos : Ptr) : Except Stop UInt8 := do
  let (_, pos) ← advance pos
  let (next, _) ← advance pos
  .ok next

/-- The first step of `CheckAllLinks`. -/
def checkControls (fuel : ℕ) (pos : Ptr) : Except Stop Bool :=
  match findPipe pos, fuel with
  | none, _ => .ok true
  | some _, 0 => .error .endless
  | some pos, fuel + 1 => do
    let next ← charAfter pos
    if next = letterH ∨ next = smallH ∨ next = letterC ∨ next = smallR ∨ next = pipe then
      checkControls fuel (pos.drop 2)
    else .ok false

/-- The second step of `CheckAllLinks`. -/
def checkLinks (v : Validators) (fuel : ℕ) (pos : Ptr) : Except Stop Bool :=
  match findPipe pos, fuel with
  | none, _ => .ok true
  | some _, 0 => .error .endless
  | some pos, fuel + 1 => do
    let next ← charAfter pos
    -- this is an escaped pipe character (||)
    if next = pipe then checkLinks v fuel (pos.drop 2)
    else
      match parseHyperlink pos with
      | .error .refused => .ok false
      | .error stop => .error stop
      | .ok info => if v.validateLinkInfo info then checkLinks v fuel info.next else .ok false

/-- `CheckAllLinks`, with bounds for the rounds of its loops. -/
def checkAllLinks (v : Validators) (str : List UInt8) : Except Stop Bool := do
  let ok ← checkControls str.length (cStr str)
  if ok then checkLinks v str.length (cStr str) else .ok false

end Sunstrider.Chat
