import DiagramText.Diagram.Basic

namespace DiagramText

def Timeline.Period.labels (p : Timeline.Period) : List String :=
  p.title :: p.events

def Timeline.Section.labels (s : Timeline.Section) : List String :=
  s.title.toList ++ s.periods.flatMap Timeline.Period.labels

namespace Diagram

def innerLabels : Diagram → List String
  | info _ => []
  | pie d => d.sections.map Pie.Section.label
  | packet d => d.blocks.map Packet.Block.label
  | sankey d => d.nodes
  | timeline d => d.sections.flatMap Timeline.Section.labels
  | architecture d =>
    (d.groups.map fun g ↦ g.title.getD g.id) ++ (d.services.map fun s ↦ s.title.getD s.id) ++
      d.edges.filterMap Architecture.Edge.title

def labels (d : Diagram) : List String :=
  d.annotations.title.toList ++ d.innerLabels

end Diagram

end DiagramText
