import DiagramText.Pattern.Lexical

namespace DiagramText.Toml

/-- Reads a beginning of a text, or refuses it. -/
abbrev Reader := StateT (List Char) Option

namespace Reader

variable {α β : Type}

def taken (p : Pattern) : Reader (List Char) :=
  p

def skip (p : Pattern) : Reader Unit := do
  let _ ← taken p

def mark (s : String) : Reader Unit :=
  skip (.literal s.toList)

def many (p : Reader α) (cs : List Char) : Option (List α × List Char) :=
  match p cs with
  | some (a, rest) =>
    if rest.length < cs.length then (many p rest).map fun (as, rest) ↦ (a :: as, rest)
    else some ([], cs)
  | none => some ([], cs)
termination_by cs.length

def separated (p : Reader α) (separator : Reader Unit) : Reader (List α) := do
  let a ← p
  let as ← many (do separator; p)
  pure (a :: as)

def orElse (p : Reader α) (default : α) : Reader α :=
  p <|> pure default

end Reader

def isControl (c : Char) : Bool :=
  c < ' ' && c ≠ '\t' || c = '\x7f'

def blanks : Pattern :=
  .many Pattern.isSpace

def comment : Pattern :=
  (Pattern.literal ['#']).seq (.many fun c ↦ !isControl c)

/-- Blanks, comments and line ends, as they may stand between the parts of a value. -/
def void : Reader Unit := do
  let _ ← Reader.many
    (Reader.taken (((Pattern.many1 Pattern.isSpace).alt Pattern.lineEnd).alt comment))

end DiagramText.Toml
