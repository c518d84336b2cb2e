import DiagramText.Failure
import DiagramText.Grammar.OfKind
import DiagramText.Preamble
import DiagramText.Settings

namespace DiagramText

def Failure.ofDispatch (source : String) : DispatchError → Failure
  | .unknownKind u => .kind u
  | .invalid e => .parse e source

namespace Diagram

def readAs (k : Kind) (text : String) : Except Failure Diagram :=
  (k.parse text).mapError fun e ↦ .parse e text

def readTagged (tag text : String) : Except Failure Diagram :=
  (parseTagged tag text).mapError (Failure.ofDispatch text)

def kindOf (text : String) : Except UnknownKind Kind :=
  match Kind.ofText? text with
  | some k => .ok k
  | none => .error ⟨String.ofList (Text.firstWord text.toList)⟩

def read (s : Settings) (text : String) : Except Failure Diagram :=
  match s.kind with
  | some k => readAs k text
  | none =>
    match kindOf text with
    | .ok k => readAs k text
    | .error u => .error (.kind u)

end Diagram

end DiagramText
