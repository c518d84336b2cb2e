import DiagramText.Grammar.Basic

namespace DiagramText

def Sankey.endpoints (links : List Sankey.Link) : List String :=
  links.flatMap fun l ↦ [l.source, l.target]

def firstOccurrences (names : List String) : List String :=
  names.foldl (fun seen name ↦ if name ∈ seen then seen else seen ++ [name]) []

def Sankey.withNodes (d : Sankey) : Sankey :=
  { d with nodes := firstOccurrences (Sankey.endpoints d.links) }

namespace Grammar.Sankey

open Production Text

/-- A number that ends a line is a value, so values are tried before nodes. -/
def lexicon : Lexicon :=
  ((Lexicon.base.keywords [.sankeyBeta, .sankey]).annotations.add
    [.ofPattern .sankeyValue Pattern.sankeyValue,
      .ofPattern .sankeyNode Pattern.sankeyNode]).symbols [.comma]

def fieldText (cs : List Char) : List Char :=
  match between? ['"'] ['"'] cs with
  | some inner => unpaired '"' inner
  | none => trim cs

def reader : Reader := fun t ↦
  let cs := t.text.toList
  match t.kind with
  | .sankeyNode => .ok (.ofChars (fieldText cs))
  | .sankeyValue =>
    (Reader.numberOf t (dropWhileEnd (· = '"') (cs.dropWhile (· = '"')))).map .number
  | _ => Reader.common t

def header : Production Unit := do
  let _ ← keywordOf [.sankeyBeta, .sankey] "sankey-beta"
  endOfLine

/-- `source,target,value` -/
def link : Production Sankey.Link := do
  let source ← text reader .sankeyNode "source node"
  let _ ← symbol .comma
  let target ← text reader .sankeyNode "target node"
  let _ ← symbol .comma
  let value ← number reader .sankeyValue "flow value"
  endOfLine
  pure ⟨source.value, target.value, value.value⟩

def entry : Production Sankey.Link := do
  match ← nextKind with
  | some .sankeyNode => link
  | _ => expected "sankey link"

def assemble (_ : Unit) (items : List (Statement Sankey.Link)) : Diagram × List Fault :=
  (.sankey { links := Statement.entries items, annotations := Statement.annotations items }, [])

def lacks : Diagram → Option (Nat → Fault)
  | .sankey d => if d.links.isEmpty then some .noLinks else none
  | _ => none

def complete : Diagram → Diagram
  | .sankey d => .sankey d.withNodes
  | d => d

def grammar : Grammar where
  Header := Unit
  Item := Statement Sankey.Link
  lexicon := lexicon
  header := header
  statement := Statement.production reader entry
  assemble := assemble
  lacks := lacks
  complete := complete

end Grammar.Sankey

end DiagramText
