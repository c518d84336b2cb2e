import DiagramText.Fault
import DiagramText.Number.Decimal
import DiagramText.Text.Basic
import DiagramText.Text.Blank

namespace DiagramText

inductive Value
  | text (s : String)
  | number (x : Binary64)
  deriving DecidableEq, Repr

abbrev Reader := Token → Except Fault Value

namespace Value

def ofChars (cs : List Char) : Value :=
  .text (String.ofList cs)

def toText : Value → String
  | text s => s
  | number x => x.render .message

end Value

namespace Reader

open Text (trim trimStart)

def numberOf (t : Token) (cs : List Char) : Except Fault Binary64 :=
  match Binary64.ofText? cs with
  | some x => .ok x
  | none => .error (.notANumber t.text t.span)

def titleText (cs : List Char) : List Char :=
  trim (Text.dropBytes "title".utf8ByteSize cs)

/-- The text after the first colon; empty without one. -/
def afterColon (cs : List Char) : List Char :=
  trim ((cs.dropWhile (· ≠ ':')).drop 1)

def trimmedLines (cs : List Char) : List Char :=
  trim (['\n'].intercalate ((Text.lines cs).map trim))

/-- A description after a colon, or the trimmed lines of one in braces. -/
def descriptionText (cs : List Char) : List Char :=
  let body := trimStart (Text.dropBytes "accDescr".utf8ByteSize cs)
  if Text.startsWith [':'] body then afterColon body
  else trimmedLines (Text.dropWhileEnd (· = '\x7d') (body.dropWhile (· = '\x7b')))

def unquoted (cs : List Char) : List Char :=
  ((Text.between? ['"'] ['"'] cs).or (Text.between? ['\''] ['\''] cs)).getD cs

def common : Reader := fun t ↦
  let cs := t.text.toList
  match t.kind with
  | .title => .ok (.ofChars (titleText cs))
  | .accTitle => .ok (.ofChars (afterColon cs))
  | .accDescr => .ok (.ofChars (descriptionText cs))
  | .string => .ok (.ofChars (unquoted cs))
  | .number => (numberOf t cs).map .number
  | _ => .ok (.text t.text)

end Reader

end DiagramText
