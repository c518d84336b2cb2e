import DiagramText.Diagram.Basic
import DiagramText.Json

namespace DiagramText

def Annotations.members (a : Annotations) : List (String × Json) :=
  Json.member? "title" .string a.title ++ Json.member? "accTitle" .string a.accTitle ++
    Json.member? "accDescr" .string a.accDescr

def Pie.Section.toJson (s : Pie.Section) : Json :=
  .object [("label", .string s.label), ("value", .number s.value)]

def Packet.Block.toJson (b : Packet.Block) : Json :=
  .object (Json.member? "start" .nat b.first ++ Json.member? "end" .nat b.last ++
    Json.member? "bits" .nat b.bits ++ [("label", .string b.label)])

def Sankey.Link.toJson (l : Sankey.Link) : Json :=
  .object [("source", .string l.source), ("target", .string l.target), ("value", .number l.value)]

def Timeline.Period.toJson (p : Timeline.Period) : Json :=
  .object [("title", .string p.title), ("events", .array (p.events.map .string))]

def Timeline.Section.toJson (s : Timeline.Section) : Json :=
  .object [("title", Json.ofOption .string s.title),
    ("periods", .array (s.periods.map Timeline.Period.toJson))]

namespace Architecture

def Group.toJson (g : Group) : Json :=
  .object ([("id", .string g.id)] ++ Json.member? "icon" .string g.icon ++
    Json.member? "title" .string g.title ++ Json.member? "in" .string g.parent)

def Service.toJson (s : Service) : Json :=
  .object ([("id", .string s.id)] ++ Json.member? "icon" .string s.icon ++
    Json.member? "iconText" .string s.iconText ++ Json.member? "title" .string s.title ++
    Json.member? "in" .string s.parent)

def Junction.toJson (j : Junction) : Json :=
  .object ([("id", .string j.id)] ++ Json.member? "in" .string j.parent)

def Edge.toJson (e : Edge) : Json :=
  .object ([("lhsId", .string e.left.id), ("lhsGroup", .bool e.left.isGroup),
    ("lhsDir", .string e.left.side.letter), ("lhsInto", .bool e.left.isArrow)] ++
    Json.member? "title" .string e.title ++
    [("rhsInto", .bool e.right.isArrow), ("rhsDir", .string e.right.side.letter),
    ("rhsId", .string e.right.id), ("rhsGroup", .bool e.right.isGroup)])

end Architecture

namespace Diagram

def innerMembers : Diagram → List (String × Json)
  | info d => [("showInfo", .bool d.showInfo)]
  | pie d =>
    [("showData", .bool d.showData), ("sections", .array (d.sections.map Pie.Section.toJson))]
  | packet d => [("blocks", .array (d.blocks.map Packet.Block.toJson))]
  | sankey d =>
    [("links", .array (d.links.map Sankey.Link.toJson)),
      ("nodes", .array (d.nodes.map fun id ↦ .object [("id", .string id)]))]
  | timeline d => [("sections", .array (d.sections.map Timeline.Section.toJson))]
  | architecture d =>
    [("groups", .array (d.groups.map Architecture.Group.toJson)),
      ("services", .array (d.services.map Architecture.Service.toJson)),
      ("junctions", .array (d.junctions.map Architecture.Junction.toJson)),
      ("edges", .array (d.edges.map Architecture.Edge.toJson))]

/-- The kind comes first, the titles come last, and what has no value is left out. -/
def toJson (d : Diagram) : Json :=
  .object (("$type", .string d.kind.tag) :: d.innerMembers ++ d.annotations.members)

end Diagram

end DiagramText
