import DiagramText.Unicode.Cluster
import DiagramText.Unicode.WordData

namespace DiagramText.Unicode

/-- What decides the boundaries of words (Unicode Annex 29). -/
inductive WordClass
  | cr
  | lf
  | newline
  | extend
  | joiner
  | format
  | regional
  | katakana
  | hebrewLetter
  | letter
  | singleQuote
  | doubleQuote
  | midBoth
  | midLetter
  | midNumber
  | numeric
  | connector
  | space
  | other
  deriving DecidableEq, Repr

namespace WordClass

def ofAscii (c : Char) : WordClass :=
  if c.isAlpha then letter
  else if c.isDigit then numeric
  else if c = ' ' then space
  else if c = '_' then connector
  else if c = '\'' then singleQuote
  else if c = '"' then doubleQuote
  else if c = '.' then midBoth
  else if c = ':' then midLetter
  else if c = ',' || c = ';' then midNumber
  else if c = '\r' then cr
  else if c = '\n' then lf
  else if c = '\x0b' || c = '\x0c' then newline
  else other

def of (c : Char) : WordClass :=
  if c ≤ '\x7f' then ofAscii c
  else if c = '\u200d' then joiner
  else if ClusterClass.isRegional c then regional
  else if Word.letter.contains c then letter
  else if Cluster.extend.contains c || Word.spacing.contains c then extend
  else if Word.format.contains c then format
  else if Word.katakana.contains c then katakana
  else if Word.hebrewLetter.contains c then hebrewLetter
  else if Word.numeric.contains c then numeric
  else if Word.connector.contains c then connector
  else if Word.midBoth.contains c then midBoth
  else if Word.midLetter.contains c then midLetter
  else if Word.midNumber.contains c then midNumber
  else if Word.newline.contains c then newline
  else if Word.space.contains c then space
  else other

def isLineEnd : WordClass → Bool
  | cr | lf | newline => true
  | _ => false

/-- Characters that belong to what precedes them and are passed over by the other rules. -/
def isIgnored : WordClass → Bool
  | extend | joiner | format => true
  | _ => false

def isLetter : WordClass → Bool
  | letter | hebrewLetter => true
  | _ => false

def bridgesLetters : WordClass → Bool
  | midBoth | midLetter | singleQuote => true
  | _ => false

def bridgesNumbers : WordClass → Bool
  | midBoth | midNumber | singleQuote => true
  | _ => false

end WordClass

/-- What the word so far asks of the next character. -/
inductive WordEnd
  | class (k : WordClass)
  | letterBridge
  | numberBridge
  deriving DecidableEq, Repr

structure WordState where
  last : WordEnd
  joined : Bool
  /-- Ignored characters stand after `last`. -/
  skipped : Bool

namespace WordState

def start (c : Char) : WordState :=
  let k := WordClass.of c
  ⟨.class (if k.isIgnored then .other else k), k = .joiner, false⟩

def nextClass : List Char → WordClass
  | [] => .other
  | c :: cs => if (WordClass.of c).isIgnored then nextClass cs else .of c

def goesOn (rest : List Char) : WordClass → WordClass → Bool
  | .letter, k | .hebrewLetter, k =>
    k.isLetter || k = .numeric || k = .connector ||
      k.bridgesLetters && (nextClass rest).isLetter
  | .numeric, k =>
    k.isLetter || k = .numeric || k = .connector ||
      k.bridgesNumbers && nextClass rest = .numeric
  | .katakana, k => k = .katakana || k = .connector
  | .connector, k => k.isLetter || k = .numeric || k = .katakana || k = .connector
  | .regional, k => k = .regional
  | _, _ => false

/-- Quotes after a Hebrew letter: a single one always, a double one between two letters. -/
def hebrewQuote (rest : List Char) (last k : WordClass) : Bool :=
  last = .hebrewLetter &&
    (k = .singleQuote || k = .doubleQuote && nextClass rest = .hebrewLetter)

def joins (s : WordState) (c : Char) (rest : List Char) : Bool :=
  let k := WordClass.of c
  match s.last with
  | .class last =>
    if last.isLineEnd then last = .cr && k = .lf
    else if k.isLineEnd then false
    else
      k.isIgnored || s.joined && ClusterState.isPictograph c ||
        last = .space && k = .space && !s.skipped || goesOn rest last k || hebrewQuote rest last k
  | .letterBridge => k.isIgnored || s.joined && ClusterState.isPictograph c || k.isLetter
  | .numberBridge => k.isIgnored || s.joined && ClusterState.isPictograph c || k = .numeric

/-- What a character of class `k` leaves behind after `last`. A pair of regional indicators is
complete. -/
def nextEnd (last : WordEnd) (k : WordClass) : WordEnd :=
  match last with
  | .class last =>
    if last.isLetter && (k.bridgesLetters || k = .doubleQuote) then .letterBridge
    else if last = .numeric && k.bridgesNumbers then .numberBridge
    else if last = .regional && k = .regional then .class .other
    else .class k
  | _ => .class k

def next (s : WordState) (c : Char) : WordState :=
  let k := WordClass.of c
  if k.isIgnored then ⟨s.last, k = .joiner, true⟩ else ⟨nextEnd s.last k, false, false⟩

end WordState

def wordBoundaries : Boundaries WordState :=
  ⟨WordState.start, WordState.joins, WordState.next⟩

def words (cs : List Char) : List (List Char) :=
  wordBoundaries.pieces cs

end DiagramText.Unicode
