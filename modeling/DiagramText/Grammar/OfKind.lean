import DiagramText.Grammar.Architecture
import DiagramText.Grammar.Info
import DiagramText.Grammar.Packet
import DiagramText.Grammar.Pie
import DiagramText.Grammar.Sankey
import DiagramText.Grammar.Timeline

namespace DiagramText

def Kind.grammar : Kind → Grammar
  | .info => Grammar.Info.grammar
  | .pie => Grammar.Pie.grammar
  | .packet => Grammar.Packet.grammar
  | .sankey => Grammar.Sankey.grammar
  | .timeline => Grammar.Timeline.grammar
  | .architecture => Grammar.Architecture.grammar

def Kind.parse (k : Kind) (text : String) : Except ParseError Diagram :=
  (k.grammar.parse text).toExcept

inductive DispatchError
  | unknownKind (u : UnknownKind)
  | invalid (e : ParseError)

def parseTagged (tag text : String) : Except DispatchError Diagram :=
  match Kind.named tag with
  | .error u => .error (.unknownKind u)
  | .ok k => (k.parse text).mapError .invalid

end DiagramText
