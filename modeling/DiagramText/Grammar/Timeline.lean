import DiagramText.Grammar.Basic

namespace DiagramText.Grammar.Timeline

open Production Text

def lexicon : Lexicon :=
  (Lexicon.base.keywords [.timeline]).annotations.add
    [.ofPattern .sectionTitle Pattern.sectionTitle, .keyword .section,
      .ofPattern .periodEvent Pattern.periodEvent, .ofPattern .periodTitle Pattern.periodTitle]

def reader : Reader := fun t ↦
  let cs := t.text.toList
  match t.kind with
  | .sectionTitle => .ok (.ofChars (trim (dropAll "section".toList cs)))
  | .periodTitle => .ok (.ofChars (trim cs))
  | .periodEvent => .ok (.ofChars (trim (cs.dropWhile (· = ':'))))
  | _ => Reader.common t

inductive Entry
  | section (title : String)
  | period (p : Timeline.Period)
  | continuation (events : Spanned (List String))

def event : Production (Spanned String) :=
  text reader .periodEvent "event"

def sectionLine : Production Entry := do
  let title ← text reader .sectionTitle "section"
  endOfLine
  pure (.section title.value)

/-- `period [: event]*` -/
def periodLine : Production Entry := do
  let title ← text reader .periodTitle "period"
  let events ← many event
  endOfLine
  pure (.period ⟨title.value, events.map Spanned.value⟩)

/-- Events on a line of their own go on with the period before it. -/
def continuationLine : Production Entry := do
  let events ← many1 event
  endOfLine
  pure (.continuation ⟨events.map Spanned.value, .unionAll (events.map Spanned.span)⟩)

def entry : Production Entry := do
  match ← nextKind with
  | some .sectionTitle => sectionLine
  | some (.keyword .section) => expected "section title"
  | some .periodTitle => periodLine
  | some .periodEvent => continuationLine
  | _ => expected "section or period"

/-- The list with its last member changed; none if there is no last member or no change of it. -/
def updateLast? {α : Type} (f : α → Option α) : List α → Option (List α)
  | [] => none
  | [a] => (f a).map ([·])
  | a :: b :: rest => (updateLast? f (b :: rest)).map (a :: ·)

def extend? (events : List String) : List Timeline.Section → Option (List Timeline.Section) :=
  updateLast? fun s ↦
    (updateLast? (fun p ↦ some { p with events := p.events ++ events }) s.periods).map fun ps ↦
      { s with periods := ps }

/-- The sections with one more period; before any section, it opens one without a title. -/
def addPeriod (p : Timeline.Period) (sections : List Timeline.Section) : List Timeline.Section :=
  (updateLast? (fun s ↦ some { s with periods := s.periods ++ [p] }) sections).getD [⟨none, [p]⟩]

def step : List Timeline.Section × List Fault → Entry → List Timeline.Section × List Fault
  | (sections, faults), .section title => (sections ++ [⟨some title, []⟩], faults)
  | (sections, faults), .period p => (addPeriod p sections, faults)
  | (sections, faults), .continuation events =>
    match extend? events.value sections with
    | some sections => (sections, faults)
    | none => (sections, faults ++ [.noPeriod events.span])

def assemble (_ : Token) (items : List (Statement Entry)) : Diagram × List Fault :=
  let (sections, faults) := (Statement.entries items).foldl step ([], [])
  (.timeline { sections, annotations := Statement.annotations items }, faults)

def grammar : Grammar where
  Header := Token
  Item := Statement Entry
  lexicon := lexicon
  header := keyword .timeline
  statement := Statement.production reader entry
  assemble := assemble
  lacks _ := none
  complete d := d

end DiagramText.Grammar.Timeline
