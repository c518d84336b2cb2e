import DiagramText.Span

namespace DiagramText

inductive Keyword
  | info
  | showInfo
  | pie
  | showData
  | packetBeta
  | packet
  | sankeyBeta
  | sankey
  | timeline
  | section
  | architectureBeta
  | architecture
  | group
  | service
  | junction
  | in
  deriving DecidableEq, Repr

inductive Symbol
  | colon
  | comma
  | minus
  | doubleMinus
  | plus
  | leftAngle
  | rightAngle
  | groupModifier
  deriving DecidableEq, Repr

namespace Keyword

def text : Keyword → String
  | info => "info"
  | showInfo => "showInfo"
  | pie => "pie"
  | showData => "showData"
  | packetBeta => "packet-beta"
  | packet => "packet"
  | sankeyBeta => "sankey-beta"
  | sankey => "sankey"
  | timeline => "timeline"
  | .section => "section"
  | architectureBeta => "architecture-beta"
  | architecture => "architecture"
  | group => "group"
  | service => "service"
  | junction => "junction"
  | .in => "in"

end Keyword

namespace Symbol

def text : Symbol → String
  | colon => ":"
  | comma => ","
  | minus => "-"
  | doubleMinus => "--"
  | plus => "+"
  | leftAngle => "<"
  | rightAngle => ">"
  | groupModifier => "\x7bgroup\x7d"

end Symbol

namespace Token

/-- What a token is. The first four kinds are hidden from the grammars; an `invalid` token is
text that no rule matched. -/
inductive Kind
  | whitespace
  | lineComment
  | blockComment
  | directive
  | newline
  | keyword (k : Keyword)
  | symbol (s : Symbol)
  | identifier
  | number
  | string
  | title
  | accTitle
  | accDescr
  | sankeyNode
  | sankeyValue
  | sectionTitle
  | periodTitle
  | periodEvent
  | archIcon
  | archTextIcon
  | archTitle
  | invalid
  deriving DecidableEq, Repr

namespace Kind

def isHidden : Kind → Bool
  | whitespace | lineComment | blockComment | directive => true
  | _ => false

def describe : Kind → String
  | whitespace => "whitespace"
  | lineComment => "line comment"
  | blockComment => "block comment"
  | directive => "directive"
  | newline => "newline"
  | keyword k => "`" ++ k.text ++ "`"
  | symbol s => "`" ++ s.text ++ "`"
  | identifier => "identifier"
  | number => "number"
  | string => "string"
  | title => "title"
  | accTitle => "accessible title"
  | accDescr => "accessible description"
  | sankeyNode => "node"
  | sankeyValue => "flow value"
  | sectionTitle => "section"
  | periodTitle => "period"
  | periodEvent => "event"
  | archIcon => "icon"
  | archTextIcon => "text icon"
  | archTitle => "title"
  | invalid => "invalid text"

end Kind

end Token

structure Token where
  kind : Token.Kind
  text : String
  span : Span
  deriving DecidableEq, Repr

namespace Token

/-- How a message names a token: a line end by its kind, any other token by its text. -/
def describe (t : Token) : String :=
  if t.kind = .newline then "newline" else "`" ++ t.text ++ "`"

end Token

end DiagramText
