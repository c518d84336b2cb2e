import DiagramText.Diagnostic
import DiagramText.Token
import DiagramText.Number.Numeral

namespace DiagramText

inductive Fault
  | unexpectedText (run : String) (span : Span)
  /-- A quote that no equal quote follows on its line. -/
  | unterminatedString (run : String) (span : Span)
  | unexpectedToken (token : Token) (expected : String)
  | endOfLine (span : Span) (expected : String)
  | endOfInput (textEnd : Nat) (expected : String)
  | notANumber (text : String) (span : Span)
  | notWholeBits (value : Binary64) (span : Span)
  | reversedRange (first last : Spanned Nat)
  | noLinks (textEnd : Nat)
  | noPeriod (span : Span)

namespace Fault

def primary (span : Span) (message : String) : Label :=
  ⟨span, message, true⟩

def quote (s : String) : String :=
  "`" ++ s ++ "`"

def diagnostic : Fault → Diagnostic
  | unexpectedText run span =>
    let noun := if run.toList.length = 1 then "character" else "characters"
    { code := some .E001
      message := "unexpected " ++ noun ++ " " ++ quote run
      labels := [primary span "not recognized here"]
      help := none }
  | unterminatedString run span =>
    { code := some .E002
      message := "unterminated string literal " ++ quote run
      labels := [primary span "string is not closed on this line"]
      help := none }
  | unexpectedToken token expected =>
    { code := some .E100
      message := "unexpected token " ++ token.describe ++ ": expected " ++ expected
      labels := [primary token.span "unexpected token"]
      help := some "check the statement syntax of this diagram kind" }
  | endOfLine span expected =>
    { code := some .E100
      message := "unexpected end of line: expected " ++ expected
      labels := [primary span "statement ends here"]
      help := some "complete the statement before the line break" }
  | endOfInput textEnd expected =>
    { code := some .E101
      message := "unexpected end of input: expected " ++ expected
      labels := [primary (.emptyAt textEnd) "input ends here"]
      help := some "complete the statement" }
  | notANumber text span =>
    { code := some .E102
      message := "invalid value " ++ quote text ++ ": not a number"
      labels := [primary span "expected a number"]
      help := none }
  | notWholeBits value span =>
    { code := some .E102
      message := "invalid value " ++ quote (value.render .message) ++
        ": expected a whole number of bits"
      labels := [primary span "not a whole number of bits"]
      help := none }
  | reversedRange first last =>
    { code := some .E103
      message := "invalid range: block ends at bit " ++ toString last.value ++
        " before it starts at bit " ++ toString first.value
      labels := [primary last.span "ends before it starts", ⟨first.span, "block starts here", false⟩]
      help := some "write the lower bit first" }
  | noLinks textEnd =>
    { code := some .E101
      message := "unexpected end of input: expected sankey link"
      labels := [primary (.emptyAt textEnd) "input ends here"]
      help := some "add a `source,target,value` line" }
  | noPeriod span =>
    { code := some .E100
      message := "unexpected token: expected a period before its events"
      labels := [primary span "no period to extend"]
      help := some "start the line with a period title, as in `2021 : event`" }

end Fault

end DiagramText
