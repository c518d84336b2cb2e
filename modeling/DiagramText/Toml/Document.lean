import DiagramText.Toml.Scalar
import DiagramText.Toml.Table

namespace DiagramText.Toml

def spaced (s : String) : Reader Unit := do
  void
  Reader.mark s
  void

/-- Parts between two marks. A comma may follow the last one. -/
def listed {α : Type} (opening closing : String) (part : Reader α) : Reader (List α) := do
  Reader.mark opening
  void
  let parts ← Reader.orElse
    (do
      let parts ← Reader.separated part (spaced ",")
      Reader.orElse (spaced ",") ()
      pure parts)
    []
  void
  Reader.mark closing
  pure parts

def assignment (value : Reader Data) : Reader (List String × Data) := do
  let path ← key
  Reader.skip blanks
  Reader.mark "="
  Reader.skip blanks
  pure (path, ← value)

def assignAll? (assignments : List (List String × Data)) : Option Entries :=
  assignments.foldlM (fun entries (path, d) ↦ Entries.assign? d path entries) []

def inlineTable (value : Reader Data) : Reader Data := do
  let entries ← StateT.lift (assignAll? (← listed "\x7b" "\x7d" (assignment value)))
  pure (.table (dataOf entries))

/-- A value with at most `depth` arrays and tables around each of its parts. -/
def value : Nat → Reader Data
  | 0 => .string <$> string <|> scalar
  | depth + 1 =>
    .array <$> listed "[" "]" (value depth) <|> inlineTable (value depth) <|>
      .string <$> string <|> scalar

def depthLimit : Nat := 80

inductive Line
  | empty
  | assignment (path : List String) (d : Data)
  | header (path : List String)
  | element (path : List String)

def header (opening closing : String) : Reader (List String) := do
  Reader.mark opening
  Reader.skip blanks
  let path ← key
  Reader.skip blanks
  Reader.mark closing
  pure path

def line : Reader Line := do
  Reader.skip blanks
  let content ← Reader.orElse
    (Line.element <$> header "[[" "]]" <|> Line.header <$> header "[" "]" <|>
      (fun (path, d) ↦ Line.assignment path d) <$> assignment (value depthLimit))
    .empty
  Reader.skip blanks
  Reader.skip comment.optional
  pure content

def lines : Reader (List Line) :=
  Reader.separated line (Reader.skip Pattern.lineEnd)

/-- The entries of the lines so far, and the path of the table that the next line belongs to. -/
structure State where
  entries : Entries
  path : List String

def State.opened? (s : State) (f : String → Entries → Option Entries) (path : List String) :
    Option State := do
  let entries ← Entries.within? (f (← path.getLast?)) path.dropLast s.entries
  some ⟨entries, path⟩

def State.after? (s : State) : Line → Option State
  | .empty => some s
  | .assignment path d => do
    some { s with entries := ← Entries.within? (Entries.assign? d path) s.path s.entries }
  | .header path => s.opened? Entries.open? path
  | .element path => s.opened? Entries.openNext? path

def parse? (text : String) : Option Data := do
  let cs := text.toList
  let (content, rest) ← lines (if cs.head? = some '\ufeff' then cs.drop 1 else cs)
  if rest.isEmpty then
    let s ← content.foldlM State.after? ⟨[], []⟩
    some (.table (dataOf s.entries))
  else none

end DiagramText.Toml
