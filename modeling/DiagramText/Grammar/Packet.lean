import DiagramText.Grammar.Basic

namespace DiagramText.Grammar.Packet

open Production

def lexicon : Lexicon :=
  ((Lexicon.base.keywords [.packetBeta, .packet]).annotations.add
    [.ofPattern .number Pattern.number, .ofPattern .string Pattern.string]).symbols
    [.colon, .minus, .plus]

def header : Production Keyword :=
  keywordOf [.packetBeta, .packet] "packet-beta"

def maxBit : Nat :=
  Nat.pow 2 32 - 1

/-- A bit position or a width: a whole number of at most 32 bits. -/
def bit (what : String) : Production (Spanned Nat) := do
  let x ← number Reader.common .number what
  match x.value.toNat?.filter (· ≤ maxBit) with
  | some n => pure ⟨n, x.span⟩
  | none => invalid (.notWholeBits x.value x.span)

def label : Production String := do
  let _ ← symbol .colon
  let s ← text Reader.common .string "block label"
  endOfLine
  pure s.value

def lastBit : Production (Spanned Nat) := do
  let _ ← symbol .minus
  bit "end bit"

/-- `first[-last]: "label"`. The order of the bits is checked before the label is read. -/
def range : Production Packet.Block := do
  let first ← bit "start bit"
  let last ← optional lastBit
  match last.filter fun last ↦ last.value < first.value with
  | some last => invalid (.reversedRange first last)
  | none => pure ⟨some first.value, last.map Spanned.value, none, ← label⟩

/-- `+bits: "label"` -/
def width : Production Packet.Block := do
  let _ ← symbol .plus
  let bits ← bit "block width"
  pure ⟨none, none, some bits.value, ← label⟩

def entry : Production Packet.Block := do
  match ← nextKind with
  | some .number => range
  | some (.symbol .plus) => width
  | _ => expected "packet block"

def assemble (_ : Keyword) (items : List (Statement Packet.Block)) : Diagram × List Fault :=
  (.packet { blocks := Statement.entries items, annotations := Statement.annotations items }, [])

def grammar : Grammar where
  Header := Keyword
  Item := Statement Packet.Block
  lexicon := lexicon
  header := header
  statement := Statement.production Reader.common entry
  assemble := assemble
  lacks _ := none
  complete d := d

end DiagramText.Grammar.Packet
