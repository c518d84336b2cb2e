import DiagramText.Grammar.Annotation
import DiagramText.Lexicon.Scan
import DiagramText.Statements

namespace DiagramText

structure Grammar where
  Header : Type
  Item : Type
  lexicon : Lexicon
  header : Production Header
  statement : Production Item
  /-- The tree of a header and its statements, and the faults that only show when they are put
  together. -/
  assemble : Header → List Item → Diagram × List Fault
  /-- What a tree without other faults still lacks. -/
  lacks : Diagram → Option (Nat → Fault)
  /-- The tree with all that follows from it. -/
  complete : Diagram → Diagram

/-- A tree, if one could be made, beside everything that was wrong. -/
structure ParseResult (α : Type) where
  value : Option α
  lexerErrors : List Diagnostic
  parserErrors : List Diagnostic

namespace ParseResult

variable {α β : Type}

def hasErrors (r : ParseResult α) : Bool :=
  !r.lexerErrors.isEmpty || !r.parserErrors.isEmpty

/-- The failure of a text that gave neither a tree nor a diagnostic. -/
def noTree : ParseError :=
  .ofParserError ⟨some .E101, "no syntax tree was produced", [], none⟩

def toExcept (r : ParseResult α) : Except ParseError α :=
  match ParseError.ofDiagnostics? r.lexerErrors r.parserErrors with
  | some e => .error e
  | none =>
    match r.value with
    | some a => .ok a
    | none => .error noTree

def map (f : α → β) (r : ParseResult α) : ParseResult β :=
  ⟨r.value.map f, r.lexerErrors, r.parserErrors⟩

end ParseResult

namespace Grammar

def opening (g : Grammar) : Production g.Header := do
  Production.newlines
  g.header

def body (g : Grammar) (textEnd : Nat) (header : g.Header) (ts : List Token) :
    Diagram × List Fault :=
  let results := statements g.statement textEnd ts
  let (tree, late) := g.assemble header (itemsOf results)
  match faultsOf results ++ late with
  | [] =>
    match g.lacks tree with
    | some fault => (tree, [fault textEnd])
    | none => (g.complete tree, [])
  | faults => (tree, faults)

def tree (g : Grammar) (textEnd : Nat) (ts : List Token) : Option Diagram × List Fault :=
  match g.opening ts with
  | .accepted header rest =>
    let (tree, faults) := g.body textEnd header rest
    (some tree, faults)
  | .refused why rest => (none, [why.fault textEnd rest])

def parse (g : Grammar) (text : String) : ParseResult Diagram :=
  let cs := text.toList
  let lexed := g.lexicon.tokenize cs
  let (tree, faults) := g.tree (Text.byteSize cs) lexed.tokens
  ⟨tree, lexed.errors, faults.map Fault.diagnostic⟩

end Grammar

end DiagramText
