import DiagramText.Span

namespace DiagramText

/-- The classes of trouble a text can have; `E0..` are met while it is cut into tokens, `E1..`
while the tokens are read. -/
inductive Code
  | E001
  | E002
  | E100
  | E101
  | E102
  | E103
  deriving DecidableEq, Repr

namespace Code

def text : Code → String
  | E001 => "E001"
  | E002 => "E002"
  | E100 => "E100"
  | E101 => "E101"
  | E102 => "E102"
  | E103 => "E103"

def all : List Code :=
  [E001, E002, E100, E101, E102, E103]

def ofText? (s : String) : Option Code :=
  all.find? fun c ↦ c.text = s

def description : Code → String
  | E001 => "unexpected character"
  | E002 => "unterminated string literal"
  | E100 => "unexpected token"
  | E101 => "unexpected end of input"
  | E102 => "invalid value"
  | E103 => "invalid range"

def isLexical : Code → Bool
  | E001 | E002 => true
  | _ => false

theorem ofText?_text (c : Code) : ofText? c.text = some c := by
  cases c <;> decide

end Code

/-- A remark on a span. The primary one marks the offending text, others mark related text. -/
structure Label where
  span : Span
  message : String
  isPrimary : Bool
  deriving DecidableEq, Repr

structure Diagnostic where
  code : Option Code
  message : String
  labels : List Label
  help : Option String
  deriving DecidableEq, Repr

namespace Diagnostic

def isLexical (d : Diagnostic) : Bool :=
  d.code.any Code.isLexical

def primarySpan (d : Diagnostic) : Option Span :=
  (d.labels.find? Label.isPrimary).map Label.span

def render (d : Diagnostic) : String :=
  match d.code with
  | some code => "error[" ++ code.text ++ "]: " ++ d.message
  | none => "error: " ++ d.message

end Diagnostic

/-- Everything that was wrong with a text: at least one diagnostic. -/
structure ParseError where
  lexerErrors : List Diagnostic
  parserErrors : List Diagnostic
  nonempty : lexerErrors ++ parserErrors ≠ []

namespace ParseError

def ofDiagnostics? (lexer parser : List Diagnostic) : Option ParseError :=
  if h : lexer ++ parser ≠ [] then some ⟨lexer, parser, h⟩ else none

def ofParserError (d : Diagnostic) : ParseError :=
  ⟨[], [d], by simp⟩

def diagnostics (e : ParseError) : List Diagnostic :=
  e.lexerErrors ++ e.parserErrors

def message (e : ParseError) : String :=
  "\n".intercalate (e.diagnostics.map Diagnostic.message)

def render (e : ParseError) : String :=
  "parsing failed: " ++ e.message

end ParseError

end DiagramText
