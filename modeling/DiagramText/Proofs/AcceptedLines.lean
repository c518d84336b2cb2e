import DiagramText.Proofs.Accepted
import DiagramText.Proofs.Recovery

namespace DiagramText

variable {α : Type}

theorem flatten_lineRuns (ts : List Token) :
    (lineRuns ts).flatten = ts.filter fun t ↦ !t.isNewline := by
  induction hl : ts.length using Nat.strongRecOn generalizing ts with
  | ind n ih =>
    subst hl
    cases ts with
    | nil => rfl
    | cons t ts =>
      cases ht : t.isNewline with
      | true =>
        rw [lineRuns_newline ht, List.filter_cons_of_neg (by simp [ht])]
        exact ih ts.length (Nat.lt_succ_self _) ts rfl
      | false =>
        obtain ⟨run, tail, he, hn, hr, hb, -⟩ := @exists_line t ts ht
        have hlen : 0 < run.length := List.length_pos_iff.2 hn
        have hkeep : run.filter (fun t ↦ !t.isNewline) = run :=
          List.filter_eq_self.2 fun u hu ↦ by simp [hr u hu]
        rw [he, lineRuns_append hr hn hb, List.flatten_cons, List.filter_append, hkeep]
        refine congrArg (run ++ ·) (ih tail.length ?_ tail rfl)
        rw [he, List.length_append]
        omega

theorem forall₂_accepted {statement : Production α} (hs : Production.EndsLine statement)
    {textEnd : Nat} {ts : List Token} (h : faultsOf (statements statement textEnd ts) = []) :
    List.Forall₂ (fun run item ↦ statement run = .accepted item []) (lineRuns ts)
      (itemsOf (statements statement textEnd ts)) := by
  have hitems {runs : List (List Token)} {results : List (Except Fault α)}
      (hy : List.Forall₂ (Yields statement textEnd) runs results) (hf : faultsOf results = []) :
      List.Forall₂ (fun run item ↦ statement run = .accepted item []) runs (itemsOf results) := by
    induction hy with
    | nil => exact .nil
    | cons hy _ ih =>
      cases hy with
      | item hread => exact .cons hread (ih hf)
      | fault => cases hf
  exact hitems (forall₂_yields hs textEnd ts) h

/-- An accepted text is a header and lines, each read as an item, that make the tree. -/
theorem Kind.exists_lines_of_parse {k : Kind} {text : String} {d : Diagram}
    (h : k.parse text = .ok d) :
    ∃ header rest items tree,
      k.grammar.opening (k.grammar.lexicon.tokenize text.toList).tokens = .accepted header rest ∧
      List.Forall₂ (fun run item ↦ k.grammar.statement run = .accepted item []) (lineRuns rest)
        items ∧
      k.grammar.assemble header items = (tree, []) ∧ k.grammar.complete tree = d := by
  obtain ⟨-, htree⟩ := parse_eq_ok_iff.1 h
  obtain ⟨header, rest, hopen, hbody⟩ := Grammar.tree_eq_iff.1 htree
  obtain ⟨hfaults, tree, hassemble, -, hcomplete⟩ := Grammar.body_eq_iff.1 hbody
  exact ⟨header, rest, _, tree, hopen, forall₂_accepted k.endsLine_statement hfaults, hassemble,
    hcomplete⟩

end DiagramText
