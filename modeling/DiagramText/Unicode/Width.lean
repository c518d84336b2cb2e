import DiagramText.Unicode.Cluster
import DiagramText.Unicode.WidthData

namespace DiagramText.Unicode

/-- What the text after a character begins with, where a character before it may join. -/
inductive Follower
  | plain
  | lineFeed
  | emoji
  | modifier
  | regional
  | regionals
  | joinedEmoji
  | joinedKeycap
  /-- One, an even or an odd number of regional indicators before a joined emoji. -/
  | joinedRegional
  | joinedEven
  | joinedOdd
  | arabicAlef
  | hebrewLamed (joined : Bool)
  | khmerLetter
  | bugineseYa (joined : Bool)
  | bugineseVowel
  | tifinaghLetter (joined : Bool)
  | tifinaghJoiner
  | lisuTone
  | orkhonI (joined : Bool)
  | kiratE
  | kiratAi
  deriving DecidableEq, Repr

namespace Follower

/-- Ligatures that marks without a shape of their own do not keep apart. -/
def isTransparent : Follower → Bool
  | hebrewLamed _ | khmerLetter | bugineseYa _ | bugineseVowel | tifinaghLetter _
  | tifinaghJoiner | lisuTone | orkhonI _ | kiratE | kiratAi => true
  | _ => false

def isJoinedEmoji : Follower → Bool
  | joinedEmoji | joinedKeycap => true
  | _ => false

def joined : Follower → Follower
  | hebrewLamed _ => hebrewLamed true
  | bugineseYa _ => bugineseYa true
  | tifinaghLetter _ => tifinaghLetter true
  | orkhonI _ => orkhonI true
  | f => f

end Follower

inductive Presentation
  | text
  | emoji
  deriving DecidableEq, Repr

structure WidthState where
  follower : Follower
  selector : Option Presentation

namespace WidthState

def plain : WidthState :=
  ⟨.plain, none⟩

def followedBy (f : Follower) : WidthState :=
  ⟨f, none⟩

def inRange (c : Char) (low high : Nat) : Bool :=
  low ≤ c.toNat && c.toNat ≤ high

def isModifier (c : Char) : Bool :=
  inRange c 0x1f3fb 0x1f3ff

def isEmoji (c : Char) : Bool :=
  Width.emoji.contains c

def isKeycap (c : Char) : Bool :=
  c.isDigit || c = '#' || c = '*'

def startsEmoji (c : Char) : Bool :=
  isKeycap c || Width.textEmoji.contains c || isEmoji c

def isArabicLam (c : Char) : Bool :=
  c.toNat = 0x644 || inRange c 0x6b5 0x6b8 || c.toNat = 0x76a || c.toNat = 0x8a6 || c.toNat = 0x8c7

def isArabicAlef (c : Char) : Bool :=
  inRange c 0x622 0x623 || c.toNat = 0x625 || c.toNat = 0x627 || inRange c 0x671 0x673 ||
    c.toNat = 0x675 || inRange c 0x773 0x774 || inRange c 0x870 0x882

def isTifinagh (c : Char) : Bool :=
  inRange c 0x2d31 0x2d65 || c.toNat = 0x2d6f

/-- Letters that a Khmer coeng sign puts below the line. -/
def isKhmerLetter (c : Char) : Bool :=
  inRange c 0x1780 0x1782 || inRange c 0x1784 0x1787 || inRange c 0x1789 0x178c ||
    inRange c 0x178e 0x1793 || inRange c 0x1795 0x1798 || inRange c 0x179b 0x179d ||
    c.toNat = 0x17a0 || c.toNat = 0x17a2 || c.toNat = 0x17a7 || inRange c 0x17ab 0x17ac ||
    c.toNat = 0x17af

def isShapelessMark (c : Char) : Bool :=
  c.toNat = 0x34f || inRange c 0x17b4 0x17b5 || inRange c 0x180b 0x180d || c.toNat = 0x180f ||
    inRange c 0xfe00 0xfe0f || inRange c 0xe0100 0xe01ef

/-- Signs of one row or above a row of digits, which have no advance. -/
def isSpanningMark (c : Char) : Bool :=
  c.toNat = 0x605 || c.toNat = 0x70f || inRange c 0x890 0x891 || c.toNat = 0x8e2 ||
    c.toNat = 0xa8fa

def hasNoWidth (c : Char) : Bool :=
  Width.ignorable.contains c || Cluster.extend.contains c && !isModifier c ||
    Cluster.vowelJamo.contains c || Cluster.trailingJamo.contains c || isSpanningMark c

/-- Signs without width that Arabic letters join across. -/
def isJoiningMark (c : Char) : Bool :=
  hasNoWidth c && !(inRange c 0x200c 0x200d || inRange c 0x2065 0x2069 || isSpanningMark c ||
    Cluster.vowelJamo.contains c || Cluster.trailingJamo.contains c)

def alone (c : Char) : Int × WidthState :=
  let n := c.toNat
  if c < '\u00ad' then (1, plain)
  else if c = '\ufe0f' then (0, ⟨.plain, some .emoji⟩)
  else if c = '\ufe0e' then (0, ⟨.plain, some .text⟩)
  else if ClusterClass.isRegional c then (1, followedBy .regional)
  else if isModifier c then (2, followedBy .modifier)
  else if isEmoji c then (2, followedBy .emoji)
  else if n = 0x115f || n = 0x17a4 then (2, plain)
  else if n = 0x17d8 then (3, plain)
  else if n = 0x2d7f then (1, plain)
  else if isArabicAlef c then (1, followedBy .arabicAlef)
  else if n = 0x5dc then (1, followedBy (.hebrewLamed false))
  else if isKhmerLetter c then (1, followedBy .khmerLetter)
  else if n = 0x1a10 then (1, followedBy (.bugineseYa false))
  else if isTifinagh c then (1, followedBy (.tifinaghLetter false))
  else if inRange c 0xa4fc 0xa4fd then (1, followedBy .lisuTone)
  else if n = 0x10c03 then (1, followedBy (.orkhonI false))
  else if n = 0x16d67 then (1, followedBy .kiratE)
  else if n = 0x16d68 then (1, followedBy .kiratAi)
  else if hasNoWidth c then (0, plain)
  else if Width.wide.contains c then (2, plain)
  else (1, plain)

def ligature? (f : Follower) (c : Char) : Option (Int × WidthState) :=
  let n := c.toNat
  match f with
  | .arabicAlef =>
    if isArabicLam c then some (0, plain)
    else if isJoiningMark c then some (0, followedBy .arabicAlef)
    else none
  | .hebrewLamed true => if n = 0x5d0 then some (0, plain) else none
  | .khmerLetter => if n = 0x17d2 then some (-1, plain) else none
  | .bugineseYa true => if n = 0x1a17 then some (0, followedBy .bugineseVowel) else none
  | .bugineseVowel => if n = 0x1a15 then some (0, plain) else none
  | .tifinaghLetter joined =>
    if n = 0x2d7f then some (1, followedBy .tifinaghJoiner)
    else if joined && isTifinagh c then some (0, plain)
    else none
  | .tifinaghJoiner => if isTifinagh c then some (-1, plain) else none
  | .lisuTone => if inRange c 0xa4f8 0xa4fb then some (0, plain) else none
  | .orkhonI true => if n = 0x10c32 then some (0, plain) else none
  | .kiratE =>
    if n = 0x16d63 || n = 0x16d69 then some (0, plain)
    else if n = 0x16d67 then some (0, followedBy .kiratAi)
    else if n = 0x16d68 then some (1, followedBy .kiratE)
    else none
  | .kiratAi => if n = 0x16d63 then some (0, plain) else none
  | _ => none

def sequence? (f : Follower) (c : Char) : Option (Int × WidthState) :=
  match f with
  | .modifier =>
    if Width.modifierBase.contains c then some (0, followedBy .emoji)
    else if c = '\u200d' then some (0, followedBy .joinedEmoji)
    else none
  | .regional => if ClusterClass.isRegional c then some (1, followedBy .regionals) else none
  | .regionals =>
    if ClusterClass.isRegional c then some (1, followedBy .regionals)
    else if c = '\u200d' then some (0, followedBy .joinedEmoji)
    else none
  | .emoji => if c = '\u200d' then some (0, followedBy .joinedEmoji) else none
  | .joinedEmoji =>
    if c = '\u20e3' then some (0, followedBy .joinedKeycap)
    else if ClusterClass.isRegional c then some (1, followedBy .joinedRegional)
    else if isModifier c then some (0, followedBy .modifier)
    else if isEmoji c then some (0, followedBy .emoji)
    else none
  | .joinedRegional | .joinedOdd =>
    if ClusterClass.isRegional c then some (-1, followedBy .joinedEven)
    else if f = .joinedOdd && c = '\u200d' then some (0, followedBy .joinedEmoji)
    else none
  | .joinedEven =>
    if ClusterClass.isRegional c then some (3, followedBy .joinedOdd)
    else if c = '\u200d' then some (0, followedBy .joinedEmoji)
    else none
  | _ => none

/-- A variation selector keeps ligatures and joined emoji in view. -/
def select (s : WidthState) (p : Presentation) : WidthState :=
  let kept := s.follower.isTransparent || p = .emoji && s.follower.isJoinedEmoji
  ⟨if kept then s.follower else .plain, some p⟩

def step (c : Char) (s : WidthState) : Int × WidthState :=
  if s.selector = some .emoji && startsEmoji c then
    (if s.follower.isJoinedEmoji then 0 else 2, followedBy .emoji)
  else if c ≤ '\u00a0' then
    if c = '\n' then (1, followedBy .lineFeed)
    else if c = '\r' && s.follower = .lineFeed then (0, plain)
    else (1, plain)
  else if c = '\ufe0f' then (0, s.select .emoji)
  else if c = '\ufe0e' then (0, s.select .text)
  else if s.selector = some .text && Width.emojiText.contains c then (1, plain)
  else if s.follower.isTransparent && c = '\u200d' then (0, followedBy s.follower.joined)
  else if s.follower.isTransparent && isShapelessMark c then (0, followedBy s.follower)
  else ((ligature? s.follower c).or (sequence? s.follower c)).getD (alone c)

end WidthState

/-- The columns of a text, with the state at its beginning. It is read from its end, since what
follows a character decides whether the two are shown as one sign. -/
def widthFrom : List Char → Int × WidthState
  | [] => (0, .plain)
  | c :: cs =>
    let (width, state) := widthFrom cs
    let (more, state) := state.step c
    (width + more, state)

def width (cs : List Char) : Nat :=
  (widthFrom cs).1.toNat

end DiagramText.Unicode
