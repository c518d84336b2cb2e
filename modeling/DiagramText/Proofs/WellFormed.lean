import DiagramText.Proofs.Guarantees
import DiagramText.Proofs.TimelineSections
import DiagramText.Proofs.Unmatched
import Mathlib.Data.List.Induction

namespace DiagramText

/-- The names of a list, each once, in the order in which they first occur in it. -/
structure ListsFirst (nodes names : List String) : Prop where
  mem_iff (n : String) : n ∈ nodes ↔ n ∈ names
  ordered : nodes.Pairwise fun a b ↦ names.idxOf a < names.idxOf b

theorem listsFirst_firstOccurrences (names : List String) :
    ListsFirst (firstOccurrences names) names := by
  induction names using List.reverseRecOn with
  | nil => exact ⟨fun n ↦ Iff.rfl, .nil⟩
  | append_singleton names n ih =>
    have hmem : ∀ a ∈ firstOccurrences names, (names ++ [n]).idxOf a = names.idxOf a :=
      fun a ha ↦ List.idxOf_append_of_mem ((ih.mem_iff a).1 ha)
    have hordered : (firstOccurrences names).Pairwise fun a b ↦
        (names ++ [n]).idxOf a < (names ++ [n]).idxOf b :=
      ih.ordered.imp_of_mem fun {a b} ha hb hab ↦ by rwa [hmem a ha, hmem b hb]
    have hconcat : firstOccurrences (names ++ [n]) =
        if n ∈ firstOccurrences names then firstOccurrences names
        else firstOccurrences names ++ [n] := by
      rw [firstOccurrences, List.foldl_concat]
      rfl
    rw [hconcat]
    split
    · rename_i hn
      refine ⟨fun a ↦ ?_, hordered⟩
      rw [List.mem_append, List.mem_singleton, ih.mem_iff]
      exact ⟨.inl, fun h ↦ h.elim id fun ha ↦ ha ▸ (ih.mem_iff n).1 hn⟩
    · rename_i hn
      refine ⟨fun a ↦ by simp [ih.mem_iff], List.pairwise_append.2 ⟨hordered, by simp, ?_⟩⟩
      intro a ha b hb
      obtain rfl := List.mem_singleton.1 hb
      rw [hmem a ha, List.idxOf_append_of_notMem fun hm ↦ hn ((ih.mem_iff b).2 hm)]
      have hlt := List.idxOf_lt_length_iff.2 ((ih.mem_iff a).1 ha)
      simp
      omega

/-- A flow without errors has a link, and the ends of its links as nodes; with errors it has no
nodes. -/
structure Sankey.WellFormed (faultless : Prop) (d : Sankey) : Prop where
  links : faultless → d.links ≠ []
  nodes : faultless → ListsFirst d.nodes (endpoints d.links)
  no_nodes : ¬faultless → d.nodes = []

/-- What holds of the tree of a text, if there were errors beside it or not. -/
def Diagram.WellFormed (faultless : Prop) : Diagram → Prop
  | packet d => ∀ b ∈ d.blocks, b.WellFormed
  | sankey d => d.WellFormed faultless
  | timeline d => Timeline.WellFormed d.sections
  | architecture d => ∀ s ∈ d.services, s.WellFormed
  | info _ | pie _ => True

namespace Kind

variable {k : Kind}

theorem wellFormed_assemble {Q : Span → Prop} (header : k.grammar.Header)
    {items : List k.grammar.Item} (h : ∀ i ∈ items, k.Guarantees Q i) :
    (k.grammar.assemble header items).1.kind = k ∧
      (k.grammar.assemble header items).1.WellFormed False := by
  cases k with
  | info | pie => exact ⟨rfl, trivial⟩
  | packet => exact ⟨rfl, Statement.forall_entries h⟩
  | sankey => exact ⟨rfl, nofun, nofun, fun _ ↦ rfl⟩
  | timeline =>
    exact ⟨rfl, Timeline.wellFormed_nil.foldl_step [] (Statement.entries items)⟩
  | architecture =>
    refine ⟨rfl, fun s hs ↦ ?_⟩
    obtain ⟨e, he, hse⟩ := List.mem_filterMap.1 hs
    have hentry := Statement.forall_entries h e he
    cases e with
    | service s' => exact Option.some.inj hse ▸ hentry
    | group g | junction j | edge e => cases hse

theorem wellFormed_complete {d : Diagram} (hk : d.kind = k) (h : d.WellFormed False)
    (hl : k.grammar.lacks d = none) :
    (k.grammar.complete d).kind = k ∧ (k.grammar.complete d).WellFormed True := by
  subst hk
  cases d with
  | info | pie | packet | timeline | architecture => exact ⟨rfl, h⟩
  | sankey d =>
    have hlinks : d.links ≠ [] := by
      intro hn
      have hnone : (if d.links.isEmpty then some Fault.noLinks else none) = none := hl
      rw [hn] at hnone
      cases hnone
    exact ⟨rfl, fun _ ↦ hlinks, fun _ ↦ listsFirst_firstOccurrences _, fun hn ↦ absurd trivial hn⟩

theorem guarantees_items {Q : Span → Prop} (hQ : Span.UnionClosed Q) {textEnd : Nat}
    (he : Q (.emptyAt textEnd)) {ts : List Token} (ht : TokensAt Q ts) :
    ∀ i ∈ itemsOf (statements k.grammar.statement textEnd ts), k.Guarantees Q i :=
  itemsOf_at (statements_at (k.meets_statement hQ) he ht)

theorem wellFormed_body (textEnd : Nat) (header : k.grammar.Header) (ts : List Token) :
    (k.grammar.body textEnd header ts).1.kind = k ∧
      (k.grammar.body textEnd header ts).1.WellFormed
        ((k.grammar.body textEnd header ts).2 = []) := by
  have hitems := @guarantees_items k (fun _ ↦ True) (fun _ _ _ _ ↦ trivial) textEnd trivial
    ts fun _ _ ↦ trivial
  obtain ⟨tree, late, ha⟩ : ∃ tree late, k.grammar.assemble header
      (itemsOf (statements k.grammar.statement textEnd ts)) = (tree, late) := ⟨_, _, rfl⟩
  have hdraft := wellFormed_assemble header hitems
  rw [ha] at hdraft
  rw [Grammar.body_of_assemble ha]
  cases faultsOf (statements k.grammar.statement textEnd ts) ++ late with
  | cons f fs => simpa using hdraft
  | nil =>
    cases hl : k.grammar.lacks tree with
    | some fault => simpa using hdraft
    | none => simpa using wellFormed_complete hdraft.1 hdraft.2 hl

theorem hasErrors_eq_false_iff (k : Kind) (text : String) :
    (k.grammar.parse text).hasErrors = false ↔ (k.grammar.parse text).parserErrors = [] := by
  constructor
  · intro h
    have hboth : (k.grammar.parse text).lexerErrors = [] ∧
        (k.grammar.parse text).parserErrors = [] := by
      simpa [ParseResult.hasErrors] using h
    exact hboth.2
  · intro h
    obtain ⟨d, hok⟩ := parse_of_no_parserErrors h
    have hlex := (ParseResult.toExcept_eq_ok_iff.1 hok).1
    simp [ParseResult.hasErrors, h, hlex]

/-- Every tree is one of the kind and well formed, also a partial one beside errors. -/
theorem wellFormed_of_value {text : String} {d : Diagram}
    (h : (k.grammar.parse text).value = some d) :
    d.kind = k ∧ d.WellFormed ((k.grammar.parse text).hasErrors = false) := by
  have herrors := k.hasErrors_eq_false_iff text
  simp only [Grammar.parse, Grammar.tree] at h herrors ⊢
  cases ho : k.grammar.opening (k.grammar.lexicon.tokenize text.toList).tokens with
  | refused why rest =>
    rw [ho] at h
    cases h
  | accepted header rest =>
    rw [ho] at h herrors
    have hbody := wellFormed_body (Text.byteSize text.toList) header rest
    rw [propext herrors]
    simp only [List.map_eq_nil_iff]
    exact Option.some.inj h ▸ hbody

def halfRecord : String :=
  "sankey\na,b,1\nb,c\n"

theorem wellFormed_of_value_halfRecord :
    let d := Diagram.sankey { links := [⟨"a", "b", ⟨false, 4503599627370496, -52, by decide⟩⟩] }
    (Kind.sankey.grammar.parse halfRecord).value = some d ∧
      (Kind.sankey.grammar.parse halfRecord).hasErrors = true ∧ d.kind = .sankey ∧
      d.WellFormed ((Kind.sankey.grammar.parse halfRecord).hasErrors = false) := by
  intro d
  have hvalue : (Kind.sankey.grammar.parse halfRecord).value = some d := by decide +kernel
  exact ⟨hvalue, by decide +kernel, wellFormed_of_value hvalue⟩

end Kind

end DiagramText
