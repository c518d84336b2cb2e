import DiagramText.Number.Binary64

namespace DiagramText

inductive Data
  | null
  | bool (b : Bool)
  | integer (n : Int)
  /-- A number with a point or a power of ten; no value stands for one that is not finite. -/
  | float (x : Option Binary64)
  | string (s : String)
  | moment (text : String)
  | array (items : List Data)
  | table (entries : List (String × Data))
  deriving Inhabited

namespace Data

/-- Whether data can be read as a record of `size` fields. A table names its fields, an array lists
their values in order and may stop early, and a moment gives none. -/
def isRecord (size : Nat) : Data → Bool
  | table _ | moment _ => true
  | array items => items.length ≤ size
  | _ => false

def field? (place : Nat) (name : String) : Data → Option Data
  | table entries => (entries.find? fun (key, _) ↦ key = name).map Prod.snd
  | array items => items[place]?
  | _ => none

/-- The name of a variant without content: a string, or a table that gives the name nothing. -/
def variant? : Data → Option String
  | string s => some s
  | table [(s, null)] => some s
  | _ => none

end Data

end DiagramText
