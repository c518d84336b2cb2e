import DiagramText.Failure

namespace DiagramText

structure Report where
  message : String
  code : String
  help : Option String
  source : Option String
  labels : List Label
  deriving DecidableEq, Repr

inductive Stage
  | lexer
  | parser
  deriving DecidableEq, Repr

namespace Stage

def name : Stage → String
  | lexer => "lexer"
  | parser => "parser"

def code (s : Stage) : Option Code → String
  | some c => "marlin::" ++ s.name ++ "::" ++ c.text
  | none => "marlin::" ++ s.name

/-- What helps against a diagnostic that says nothing about it. -/
def help : Stage → Option Code → String
  | _, some .E002 => "close the string with a matching quote on the same line"
  | lexer, _ => "remove the characters or quote them as a label"
  | parser, some .E101 => "the diagram ends in the middle of a statement"
  | parser, some .E102 | parser, some .E103 => "correct the value shown"
  | parser, _ => "check the statement syntax of this diagram kind"

def report (s : Stage) (source : String) (d : Diagnostic) : Report where
  message := d.message
  code := s.code d.code
  help := some (d.help.getD (s.help d.code))
  source := some source
  labels := d.labels

end Stage

namespace Failure

def code : Failure → String
  | file _ => "marlin::io"
  | parse .. => "marlin::parse"
  | kind _ => "marlin::dispatch"
  | layout _ => "marlin::layout"
  | settings _ => "marlin::config"

def help? : Failure → Option String
  | kind _ => some ("pass --kind with one of: " ++ ", ".intercalate (Kind.all.map Kind.tag))
  | _ => none

def reports : Failure → List Report
  | parse e source =>
    e.lexerErrors.map (Stage.lexer.report source) ++ e.parserErrors.map (Stage.parser.report source)
  | f => [⟨f.message, f.code, f.help?, none, []⟩]

end Failure

end DiagramText
