import DiagramText.Grammar.Basic

namespace DiagramText

open Architecture Production Text

namespace Grammar.Architecture

def lexicon : Lexicon :=
  ((Lexicon.base.keywords
    [.architectureBeta, .architecture, .group, .service, .junction, .in]).annotations.add
    [.ofPattern .archTextIcon Pattern.archTextIcon, .ofPattern .archIcon Pattern.archIcon,
      .ofPattern .archTitle Pattern.archTitle, .ofPattern .identifier Pattern.identifier]).symbols
    [.groupModifier, .doubleMinus, .minus, .colon, .leftAngle, .rightAngle]

/-- The trimmed text between two delimiters, or the whole text where they are missing. -/
def enclosedText (opening closing cs : List Char) : Value :=
  .ofChars (trim ((between? opening closing cs).getD cs))

def reader : Reader := fun t ↦
  let cs := t.text.toList
  match t.kind with
  | .archTextIcon => .ok (enclosedText ['(', '"'] ['"', ')'] cs)
  | .archIcon => .ok (enclosedText ['('] [')'] cs)
  | .archTitle => .ok (enclosedText ['['] [']'] cs)
  | _ => Reader.common t

inductive Entry
  | group (g : Group)
  | service (s : Service)
  | junction (j : Junction)
  | edge (e : Edge)

def identifier (what : String) : Production String := do
  let s ← text reader .identifier what
  pure s.value

def textOf? (kind : Token.Kind) : Production (Option String) := do
  if (← nextKind) = some kind then
    let s ← text reader kind "text"
    pure (some s.value)
  else pure none

def membership : Production String := do
  let _ ← keyword .in
  identifier "parent group id"

def parent : Production (Option String) :=
  optional membership

/-- `group id [(icon)] [[title]] [in parent]` -/
def group : Production Group := do
  let _ ← keyword .group
  let id ← identifier "group id"
  let icon ← textOf? .archIcon
  let title ← textOf? .archTitle
  let parent ← parent
  endOfLine
  pure ⟨id, icon, title, parent⟩

def serviceIcon : Production (Option String × Option String) := do
  match ← textOf? .archTextIcon with
  | some t => pure (none, some t)
  | none => pure (← textOf? .archIcon, none)

/-- `service id [("text") | (icon)] [[title]] [in parent]` -/
def service : Production Service := do
  let _ ← keyword .service
  let id ← identifier "service id"
  let (icon, iconText) ← serviceIcon
  let title ← textOf? .archTitle
  let parent ← parent
  endOfLine
  pure ⟨id, icon, iconText, title, parent⟩

/-- `junction id [in parent]` -/
def junction : Production Junction := do
  let _ ← keyword .junction
  let id ← identifier "junction id"
  let parent ← parent
  endOfLine
  pure ⟨id, parent⟩

def side : Production Side :=
  satisfying "direction L, R, T or B" fun t ↦
    if t.kind = .identifier then Side.ofLetter? t.text else none

/-- Whether a symbol stands next; it is taken if it does. -/
def hasSymbol (s : Symbol) : Production Bool := do
  let t ← optional (symbol s)
  pure t.isSome

/-- `--`, or `-[title]-` -/
def edgeLine : Production (Option String) := do
  if (← nextKind) = some (.symbol .doubleMinus) then
    let _ ← symbol .doubleMinus
    pure none
  else
    let _ ← symbol .minus
    let title ← text reader .archTitle "edge title"
    let _ ← symbol .minus
    pure (some title.value)

/-- `id[{group}]:S [<]--[>] S:id[{group}]` -/
def edge : Production Edge := do
  let leftId ← identifier "service id"
  let leftGroup ← hasSymbol .groupModifier
  let _ ← symbol .colon
  let leftSide ← side
  let leftArrow ← hasSymbol .leftAngle
  let title ← edgeLine
  let rightArrow ← hasSymbol .rightAngle
  let rightSide ← side
  let _ ← symbol .colon
  let rightId ← identifier "service id"
  let rightGroup ← hasSymbol .groupModifier
  endOfLine
  pure ⟨⟨leftId, leftGroup, leftSide, leftArrow⟩, ⟨rightId, rightGroup, rightSide, rightArrow⟩, title⟩

def entry : Production Entry := do
  match ← nextKind with
  | some (.keyword .group) => pure (.group (← group))
  | some (.keyword .service) => pure (.service (← service))
  | some (.keyword .junction) => pure (.junction (← junction))
  | some .identifier => pure (.edge (← edge))
  | _ => expected "group, service, junction or edge"

namespace Entry

def group? : Entry → Option Group
  | group g => some g
  | _ => none

def service? : Entry → Option Service
  | service s => some s
  | _ => none

def junction? : Entry → Option Junction
  | junction j => some j
  | _ => none

def edge? : Entry → Option Edge
  | edge e => some e
  | _ => none

end Entry

def assemble (_ : Keyword) (items : List (Statement Entry)) : Diagram × List Fault :=
  let entries := Statement.entries items
  (.architecture
    { groups := entries.filterMap Entry.group?
      services := entries.filterMap Entry.service?
      junctions := entries.filterMap Entry.junction?
      edges := entries.filterMap Entry.edge?
      annotations := Statement.annotations items }, [])

def grammar : Grammar where
  Header := Keyword
  Item := Statement Entry
  lexicon := lexicon
  header := keywordOf [.architectureBeta, .architecture] "architecture-beta"
  statement := Statement.production reader entry
  assemble := assemble
  lacks _ := none
  complete d := d

end Grammar.Architecture

end DiagramText
