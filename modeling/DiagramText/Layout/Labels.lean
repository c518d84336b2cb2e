import DiagramText.Diagram.Labels
import DiagramText.Failure
import DiagramText.Settings

namespace DiagramText.Settings

/-- The lines of one line of text; a line without words stays as an empty one. -/
def wrapLine (s : Settings) (text : String) : Except LayoutError (List String) := do
  let seg := s.segmentation.segmenter
  let lines ← (seg.line .normal text).wrap seg (Line.fitsIn s.maxWidth)
  pure (if lines.isEmpty then [""] else lines.map Line.text)

def wrapLabel (s : Settings) (text : String) : Except LayoutError (List String) := do
  let wrapped ← (Text.lines text.toList).mapM fun line ↦ s.wrapLine (String.ofList line)
  pure wrapped.flatten

def wrapLabels (s : Settings) (d : Diagram) : Except LayoutError (List (List String)) :=
  d.labels.mapM s.wrapLabel

end DiagramText.Settings
