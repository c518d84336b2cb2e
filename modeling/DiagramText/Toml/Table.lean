import DiagramText.Data

namespace DiagramText.Toml

/-- Every table is defined once: by a header, by the keys with points that name it, or as a value. One
that headers of its parts imply may still get a header of its own. -/
inductive Definition
  | header
  | implied
  | pointedKey
  deriving DecidableEq

inductive Node
  /-- A value, which nothing can be added to. -/
  | value (d : Data)
  | table (definition : Definition) (entries : List (String × Node))
  /-- The tables of an array, of which the last one is in the making. -/
  | tables (done : List Data) (last : List (String × Node))

abbrev Entries := List (String × Node)

mutual

def Node.toData : Node → Data
  | .value d => d
  | .table _ entries => .table (dataOf entries)
  | .tables done last => .array (done ++ [.table (dataOf last)])

def dataOf : List (String × Node) → List (String × Data)
  | [] => []
  | (key, node) :: entries => (key, node.toData) :: dataOf entries

end

namespace Entries

def alter? {α : Type} (key : String) (f : Option α → Option α) :
    List (String × α) → Option (List (String × α))
  | [] => (f none).map fun a ↦ [(key, a)]
  | (k, a) :: entries =>
    if k = key then (f (some a)).map fun b ↦ (k, b) :: entries
    else (alter? key f entries).map ((k, a) :: ·)

/-- The entries with a value under a key with points. The tables that the key names are its own, or
those of such keys before it; on the way to them lie tables that headers imply. -/
def assign? (d : Data) : List String → Entries → Option Entries
  | [] => fun _ ↦ none
  | [key] => alter? key fun
    | none => some (.value d)
    | some _ => none
  | key :: path => alter? key fun
    | none => (assign? d path []).map (.table .pointedKey)
    | some (.table .pointedKey entries) => (assign? d path entries).map (.table .pointedKey)
    | some (.table .implied entries) =>
      if path.length = 1 then none else (assign? d path entries).map (.table .implied)
    | _ => none

def within? (f : Entries → Option Entries) : List String → Entries → Option Entries
  | [] => f
  | key :: path => alter? key fun
    | none => (within? f path []).map (.table .implied)
    | some (.table definition entries) => (within? f path entries).map (.table definition)
    | some (.tables done last) => (within? f path last).map (.tables done)
    | some (.value _) => none

def open? (key : String) : Entries → Option Entries :=
  alter? key fun
    | none => some (.table .header [])
    | some (.table .implied entries) => some (.table .header entries)
    | _ => none

def openNext? (key : String) : Entries → Option Entries :=
  alter? key fun
    | none => some (.tables [] [])
    | some (.tables done last) => some (.tables (done ++ [.table (dataOf last)]) [])
    | _ => none

end Entries

end DiagramText.Toml
