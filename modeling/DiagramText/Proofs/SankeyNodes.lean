import DiagramText.Proofs.WellFormed
import Mathlib.Data.List.Perm.Basic

namespace DiagramText

namespace ListsFirst

variable {nodes nodes' names : List String}

theorem nodup (h : ListsFirst nodes names) : nodes.Nodup := by
  apply h.ordered.imp
  intro a b hlt hab
  rw [hab] at hlt
  exact absurd hlt (Nat.lt_irrefl _)

theorem unique (h : ListsFirst nodes names) (h' : ListsFirst nodes' names) : nodes = nodes' := by
  have hperm : nodes.Perm nodes' := by
    apply (List.perm_ext_iff_of_nodup h.nodup h'.nodup).2
    intro n
    rw [h.mem_iff, h'.mem_iff]
  apply hperm.eq_of_pairwise _ h.ordered h'.ordered
  intro a b _ _ hab hba
  exact absurd hab (Nat.lt_asymm hba)

end ListsFirst

namespace Sankey

theorem mem_endpoints_iff {links : List Link} {id : String} :
    id ∈ endpoints links ↔ ∃ l ∈ links, id = l.source ∨ id = l.target := by
  simp [endpoints]

theorem listsFirst_withNodes (d : Sankey) : ListsFirst d.withNodes.nodes (endpoints d.links) :=
  listsFirst_firstOccurrences (endpoints d.links)

theorem withNodes_congr (d : Sankey) (nodes : List String) :
    withNodes { d with nodes := nodes } = d.withNodes := by
  simp only [withNodes]

/-- Completing a flow, whatever nodes it has, lists the sources and targets of its links as nodes,
each once and in the order in which they first occur in source, target, source, target and so on,
and no other list does so. Nothing else of the flow changes, and completing it again changes
nothing. -/
theorem complete_listsFirst (d : Sankey) :
    ∃ nodes, Kind.sankey.grammar.complete (.sankey d) = .sankey { d with nodes := nodes } ∧
      nodes.Nodup ∧
      (∀ id, id ∈ nodes ↔ ∃ l ∈ d.links, id = l.source ∨ id = l.target) ∧
      (nodes.Pairwise fun a b ↦
        (d.links.flatMap fun l ↦ [l.source, l.target]).idxOf a <
          (d.links.flatMap fun l ↦ [l.source, l.target]).idxOf b) ∧
      (∀ ids, ListsFirst ids (d.links.flatMap fun l ↦ [l.source, l.target]) → ids = nodes) ∧
      Kind.sankey.grammar.complete (Kind.sankey.grammar.complete (.sankey d)) =
        Kind.sankey.grammar.complete (.sankey d) := by
  have hlists := d.listsFirst_withNodes
  refine ⟨d.withNodes.nodes, rfl, hlists.nodup, ?_, hlists.ordered, ?_, ?_⟩
  · intro id
    rw [hlists.mem_iff, mem_endpoints_iff]
  · intro ids hids
    exact hids.unique hlists
  · exact congrArg Diagram.sankey (withNodes_congr d d.withNodes.nodes)

/-- A link to itself, names that come again, and nodes of an earlier time. -/
example : Kind.sankey.grammar.complete (.sankey
    { links := [⟨"b", "b", default⟩, ⟨"a", "b", default⟩, ⟨"c", "a", default⟩]
      nodes := ["old", "c"] }) =
    .sankey
      { links := [⟨"b", "b", default⟩, ⟨"a", "b", default⟩, ⟨"c", "a", default⟩]
        nodes := ["b", "a", "c"] } := by decide

end Sankey

end DiagramText
