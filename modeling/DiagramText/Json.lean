import DiagramText.Number.Numeral

namespace DiagramText

/-- A JSON document. The members of an object keep their order. -/
inductive Json
  | null
  | bool (b : Bool)
  | nat (n : Nat)
  | number (x : Binary64)
  | string (s : String)
  | array (items : List Json)
  | object (members : List (String × Json))

namespace Json

def escape (c : Char) : List Char :=
  if c = '"' then ['\\', '"']
  else if c = '\\' then ['\\', '\\']
  else if c = '\x08' then ['\\', 'b']
  else if c = '\t' then ['\\', 't']
  else if c = '\n' then ['\\', 'n']
  else if c = '\x0c' then ['\\', 'f']
  else if c = '\r' then ['\\', 'r']
  else if c < ' ' then
    ['\\', 'u', '0', '0', Nat.digitChar (c.toNat / 16), Nat.digitChar (c.toNat % 16)]
  else [c]

def quote (s : String) : String :=
  "\"" ++ String.ofList (s.toList.flatMap escape) ++ "\""

/-- How the parts of arrays and objects are set apart at a depth of nesting. -/
structure Spacing where
  lineBreak : Nat → String
  afterColon : String

def compact : Spacing :=
  ⟨fun _ ↦ "", ""⟩

/-- Every part on a line of its own, two blanks deeper than what holds it. -/
def pretty : Spacing :=
  ⟨fun depth ↦ "\n" ++ "".pushn ' ' (2 * depth), " "⟩

mutual

def render (s : Spacing) (depth : Nat) : Json → String
  | null => "null"
  | bool b => if b then "true" else "false"
  | nat n => toString n
  | number x => x.render .json
  | string t => quote t
  | array [] => "[]"
  | array (j :: js) =>
    "[" ++ s.lineBreak (depth + 1) ++ j.render s (depth + 1) ++ renderItems s depth js
  | object [] => "\x7b\x7d"
  | object ((key, j) :: ms) =>
    "\x7b" ++ s.lineBreak (depth + 1) ++ quote key ++ ":" ++ s.afterColon ++
      j.render s (depth + 1) ++ renderMembers s depth ms

def renderItems (s : Spacing) (depth : Nat) : List Json → String
  | [] => s.lineBreak depth ++ "]"
  | j :: js =>
    "," ++ s.lineBreak (depth + 1) ++ j.render s (depth + 1) ++ renderItems s depth js

def renderMembers (s : Spacing) (depth : Nat) : List (String × Json) → String
  | [] => s.lineBreak depth ++ "\x7d"
  | (key, j) :: ms =>
    "," ++ s.lineBreak (depth + 1) ++ quote key ++ ":" ++ s.afterColon ++ j.render s (depth + 1) ++
      renderMembers s depth ms

end

def renderPretty (j : Json) : String :=
  j.render pretty 0

def renderCompact (j : Json) : String :=
  j.render compact 0

def ofOption {α : Type} (f : α → Json) : Option α → Json
  | some a => f a
  | none => null

/-- A member that is left out when it has no value. -/
def member? {α : Type} (key : String) (f : α → Json) : Option α → List (String × Json)
  | some a => [(key, f a)]
  | none => []

end Json

end DiagramText
