import DiagramText.Unicode.ClusterData
import DiagramText.Unicode.Pieces

namespace DiagramText.Unicode

/-- What decides the boundaries of extended grapheme clusters (Unicode Annex 29). -/
inductive ClusterClass
  | cr
  | lf
  | control
  | extend
  | joiner
  | regional
  | prepend
  | spacingMark
  | leading
  | vowel
  | trailing
  | openSyllable
  | closedSyllable
  | other
  deriving DecidableEq, Repr

namespace ClusterClass

def isRegional (c : Char) : Bool :=
  0x1f1e6 ≤ c.toNat && c.toNat ≤ 0x1f1ff

/-- Hangul syllables come in runs of 28, of which the first has no trailing consonant. -/
def ofHangul? (c : Char) : Option ClusterClass :=
  if '\uac00' ≤ c && c ≤ '\ud7a3' then
    some (if (c.toNat - 0xac00) % 28 = 0 then openSyllable else closedSyllable)
  else if Cluster.leadingJamo.contains c then some leading
  else if Cluster.vowelJamo.contains c then some vowel
  else if Cluster.trailingJamo.contains c then some trailing
  else none

def of (c : Char) : ClusterClass :=
  if ' ' ≤ c && c ≤ '~' then other
  else if c = '\r' then cr
  else if c = '\n' then lf
  else if c = '\u200d' then joiner
  else if isRegional c then regional
  else if Cluster.control.contains c then control
  else if Cluster.extend.contains c then extend
  else if Cluster.spacingMark.contains c then spacingMark
  else if Cluster.prepend.contains c then prepend
  else (ofHangul? c).getD other

/-- A class that always ends what precedes it and begins what follows it. -/
def isControl : ClusterClass → Bool
  | cr | lf | control => true
  | _ => false

end ClusterClass

/-- How far a chain that may go on across a boundary has come. -/
inductive Chain
  | none
  | begun
  /-- The link is there; the chain goes on with another member. -/
  | linked
  deriving DecidableEq, Repr

structure ClusterState where
  last : ClusterClass
  oddRegional : Bool
  /-- A pictograph, what extends it, and a joiner as the link. -/
  pictographs : Chain
  /-- A consonant of an Indic conjunct, what extends it, and a virama as the link. -/
  conjunct : Chain

namespace ClusterState

def isPictograph (c : Char) : Bool :=
  Cluster.pictograph.contains c

def isConsonant (c : Char) : Bool :=
  Cluster.conjunctConsonant.contains c

def start (c : Char) : ClusterState :=
  let class_ := ClusterClass.of c
  { last := class_
    oddRegional := class_ = .regional
    pictographs := if isPictograph c then .begun else .none
    conjunct := if isConsonant c then .begun else .none }

def nextPictographs (chain : Chain) (class_ : ClusterClass) : Chain :=
  match chain, class_ with
  | .begun, .extend => .begun
  | .begun, .joiner => .linked
  | _, _ => .none

def nextConjunct (chain : Chain) (c : Char) (class_ : ClusterClass) : Chain :=
  if chain = .none then .none
  else if Cluster.conjunctLinker.contains c then .linked
  else if (class_ = .extend || class_ = .joiner) && c ≠ '\u200c' then chain
  else .none

def next (s : ClusterState) (c : Char) : ClusterState :=
  let class_ := ClusterClass.of c
  { last := class_
    oddRegional := class_ = .regional && !s.oddRegional
    pictographs := if isPictograph c then .begun else nextPictographs s.pictographs class_
    conjunct := if isConsonant c then .begun else nextConjunct s.conjunct c class_ }

def pairs : ClusterClass → ClusterClass → Bool
  | _, .extend | _, .joiner | _, .spacingMark => true
  | .prepend, _ => true
  | .leading, .leading | .leading, .vowel | .leading, .openSyllable | .leading, .closedSyllable =>
    true
  | .openSyllable, .vowel | .openSyllable, .trailing | .vowel, .vowel | .vowel, .trailing => true
  | .closedSyllable, .trailing | .trailing, .trailing => true
  | _, _ => false

def joins (s : ClusterState) (c : Char) (_ : List Char) : Bool :=
  let class_ := ClusterClass.of c
  if s.last = .cr && class_ = .lf then true
  else if s.last.isControl || class_.isControl then false
  else
    pairs s.last class_ || s.oddRegional && class_ = .regional ||
      s.pictographs = .linked && isPictograph c || s.conjunct = .linked && isConsonant c

end ClusterState

def clusterBoundaries : Boundaries ClusterState :=
  ⟨ClusterState.start, ClusterState.joins, ClusterState.next⟩

def clusters (cs : List Char) : List (List Char) :=
  clusterBoundaries.pieces cs

end DiagramText.Unicode
