import DiagramText.Grammar.Basic

namespace DiagramText.Grammar.Info

open Production

def lexicon : Lexicon :=
  (Lexicon.base.keywords [.info, .showInfo]).annotations

def showInfo : Production Token := do
  newlines
  keyword .showInfo

/-- `info`, with `showInfo` on the same or a later line. -/
def header : Production Bool := do
  let _ ← keyword .info
  let shown ← optional showInfo
  pure shown.isSome

def assemble (showInfo : Bool) (items : List Annotation) : Diagram × List Fault :=
  (.info { showInfo, annotations := .ofList items }, [])

def grammar : Grammar where
  Header := Bool
  Item := Annotation
  lexicon := lexicon
  header := header
  statement := Annotation.production Reader.common
  assemble := assemble
  lacks _ := none
  complete d := d

end DiagramText.Grammar.Info
