namespace DiagramText

inductive Kind
  | info
  | pie
  | packet
  | sankey
  | timeline
  | architecture
  deriving DecidableEq, Repr

namespace Kind

/-- The kinds in the order in which they are told apart. -/
def all : List Kind :=
  [info, pie, packet, sankey, timeline, architecture]

def tag : Kind → String
  | info => "info"
  | pie => "pie"
  | packet => "packet"
  | sankey => "sankey"
  | timeline => "timeline"
  | architecture => "architecture"

/-- The opening keywords, a longer one before its own beginning. -/
def keywords : Kind → List String
  | info => ["info"]
  | pie => ["pie"]
  | packet => ["packet-beta", "packet"]
  | sankey => ["sankey-beta", "sankey"]
  | timeline => ["timeline"]
  | architecture => ["architecture-beta", "architecture"]

def index (k : Kind) : Nat :=
  all.idxOf k

def ofTag? (s : String) : Option Kind :=
  all.find? fun k ↦ k.tag = s

theorem mem_all (k : Kind) : k ∈ all := by
  cases k <;> decide

theorem ofTag?_tag (k : Kind) : ofTag? k.tag = some k := by
  cases k <;> decide

theorem tag_of_ofTag? {s : String} {k : Kind} (h : ofTag? s = some k) : k.tag = s := by
  simpa using List.find?_some h

end Kind

structure UnknownKind where
  tag : String
  deriving DecidableEq, Repr

namespace UnknownKind

def message (u : UnknownKind) : String :=
  "unknown diagram kind: `" ++ u.tag ++ "`"

end UnknownKind

def Kind.named (s : String) : Except UnknownKind Kind :=
  match Kind.ofTag? s with
  | some k => .ok k
  | none => .error ⟨s⟩

end DiagramText
