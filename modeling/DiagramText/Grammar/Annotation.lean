import DiagramText.Diagram.Basic
import DiagramText.Production

namespace DiagramText

inductive Annotation
  | title (text : String)
  | accTitle (text : String)
  | accDescr (text : String)
  deriving DecidableEq, Repr

/-- A repeated annotation replaces the earlier one. -/
def Annotations.add (a : Annotations) : Annotation → Annotations
  | .title s => { a with title := some s }
  | .accTitle s => { a with accTitle := some s }
  | .accDescr s => { a with accDescr := some s }

def Annotations.ofList (as : List Annotation) : Annotations :=
  as.foldl Annotations.add {}

namespace Annotation

def opensWith : Token.Kind → Bool
  | .title | .accTitle | .accDescr => true
  | _ => false

def line (read : Reader) (kind : Token.Kind) (what : String) (make : String → Annotation) :
    Production Annotation := do
  let s ← Production.text read kind what
  Production.endOfLine
  pure (make s.value)

def production (read : Reader) : Production Annotation := do
  match ← Production.nextKind with
  | some .title => line read .title "title" .title
  | some .accTitle => line read .accTitle "accTitle" .accTitle
  | some .accDescr => line read .accDescr "accDescr" .accDescr
  | _ => Production.expected "title or accessibility statement"

end Annotation

/-- A statement of a grammar: an annotation, or an entry of its own. -/
inductive Statement (α : Type)
  | note (a : Annotation)
  | entry (e : α)

namespace Statement

variable {α : Type}

def production (read : Reader) (entry : Production α) : Production (Statement α) := do
  let kind ← Production.nextKind
  if kind.any Annotation.opensWith then
    pure (.note (← Annotation.production read))
  else pure (.entry (← entry))

def note? : Statement α → Option Annotation
  | note a => some a
  | entry _ => none

def entry? : Statement α → Option α
  | note _ => none
  | entry e => some e

def annotations (ss : List (Statement α)) : Annotations :=
  .ofList (ss.filterMap note?)

def entries (ss : List (Statement α)) : List α :=
  ss.filterMap entry?

end Statement

end DiagramText
