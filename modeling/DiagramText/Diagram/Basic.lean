import DiagramText.Kind
import DiagramText.Number.Binary64

namespace DiagramText

structure Annotations where
  title : Option String := none
  accTitle : Option String := none
  accDescr : Option String := none
  deriving DecidableEq, Repr

structure Info where
  showInfo : Bool
  annotations : Annotations := {}
  deriving DecidableEq, Repr

structure Pie.Section where
  label : String
  value : Binary64
  deriving DecidableEq, Repr

structure Pie where
  showData : Bool
  sections : List Pie.Section := []
  annotations : Annotations := {}
  deriving DecidableEq, Repr

/-- A field of a packet: a range of bits, or a width in bits after the field before it. -/
structure Packet.Block where
  first : Option Nat
  last : Option Nat
  bits : Option Nat
  label : String
  deriving DecidableEq, Repr

structure Packet where
  blocks : List Packet.Block := []
  annotations : Annotations := {}
  deriving DecidableEq, Repr

structure Sankey.Link where
  source : String
  target : String
  value : Binary64
  deriving DecidableEq, Repr

structure Sankey where
  links : List Sankey.Link := []
  nodes : List String := []
  annotations : Annotations := {}
  deriving DecidableEq, Repr

structure Timeline.Period where
  title : String
  events : List String
  deriving DecidableEq, Repr

structure Timeline.Section where
  title : Option String
  periods : List Timeline.Period
  deriving DecidableEq, Repr

structure Timeline where
  sections : List Timeline.Section := []
  annotations : Annotations := {}
  deriving DecidableEq, Repr

namespace Architecture

structure Group where
  id : String
  icon : Option String
  title : Option String
  parent : Option String
  deriving DecidableEq, Repr

structure Service where
  id : String
  icon : Option String
  iconText : Option String
  title : Option String
  parent : Option String
  deriving DecidableEq, Repr

structure Junction where
  id : String
  parent : Option String
  deriving DecidableEq, Repr

inductive Side
  | left
  | right
  | top
  | bottom
  deriving DecidableEq, Repr

def Side.letter : Side → String
  | left => "L"
  | right => "R"
  | top => "T"
  | bottom => "B"

def Side.ofLetter? (s : String) : Option Side :=
  [left, right, top, bottom].find? fun side ↦ side.letter = s

structure EdgeEnd where
  id : String
  isGroup : Bool
  side : Side
  isArrow : Bool
  deriving DecidableEq, Repr

structure Edge where
  left : EdgeEnd
  right : EdgeEnd
  title : Option String
  deriving DecidableEq, Repr

end Architecture

structure Architecture where
  groups : List Architecture.Group := []
  services : List Architecture.Service := []
  junctions : List Architecture.Junction := []
  edges : List Architecture.Edge := []
  annotations : Annotations := {}
  deriving DecidableEq, Repr

inductive Diagram
  | info (tree : Info)
  | pie (tree : Pie)
  | packet (tree : Packet)
  | sankey (tree : Sankey)
  | timeline (tree : Timeline)
  | architecture (tree : Architecture)
  deriving DecidableEq, Repr

namespace Diagram

def kind : Diagram → Kind
  | info _ => .info
  | pie _ => .pie
  | packet _ => .packet
  | sankey _ => .sankey
  | timeline _ => .timeline
  | architecture _ => .architecture

def annotations : Diagram → Annotations
  | info d => d.annotations
  | pie d => d.annotations
  | packet d => d.annotations
  | sankey d => d.annotations
  | timeline d => d.annotations
  | architecture d => d.annotations

end Diagram

end DiagramText
