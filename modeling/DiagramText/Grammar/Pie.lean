import DiagramText.Grammar.Basic

namespace DiagramText.Grammar.Pie

open Production

def lexicon : Lexicon :=
  ((Lexicon.base.keywords [.pie, .showData]).annotations.add
    [.ofPattern .number Pattern.number, .ofPattern .string Pattern.string]).symbols [.colon]

/-- `pie`, with `showData` on the same line. -/
def header : Production Bool := do
  let _ ← keyword .pie
  let shown ← optional (keyword .showData)
  pure shown.isSome

/-- `"label" : value` -/
def sectionLine : Production Pie.Section := do
  let label ← text Reader.common .string "section label"
  let _ ← symbol .colon
  let value ← number Reader.common .number "section value"
  endOfLine
  pure ⟨label.value, value.value⟩

def entry : Production Pie.Section := do
  match ← nextKind with
  | some .string => sectionLine
  | _ => expected "pie section"

def assemble (showData : Bool) (items : List (Statement Pie.Section)) : Diagram × List Fault :=
  (.pie { showData, sections := Statement.entries items, annotations := Statement.annotations items },
    [])

def grammar : Grammar where
  Header := Bool
  Item := Statement Pie.Section
  lexicon := lexicon
  header := header
  statement := Statement.production Reader.common entry
  assemble := assemble
  lacks _ := none
  complete d := d

end DiagramText.Grammar.Pie
