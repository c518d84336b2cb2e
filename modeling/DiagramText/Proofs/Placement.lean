import DiagramText.Proofs.Guarantees
import DiagramText.Proofs.Unmatched
import DiagramText.Report

namespace DiagramText

open Text (byteSize)

variable {α : Type} {Q : Span → Prop}

/-- From one place between two characters of the text, or one of its ends, on to another. -/
structure Span.PlacedIn (text : List Char) (s : Span) : Prop where
  ordered : s.start ≤ s.stop
  bounded : s.stop ≤ byteSize text
  start_between : (Cursor.at? text s.start).isSome
  stop_between : (Cursor.at? text s.stop).isSome

/-- As many bytes from the start of the span on as its length tells are a piece of the text. -/
def Span.Selects (s : Span) (text : List Char) : Prop :=
  ∃ before piece after, text = before ++ piece ++ after ∧ byteSize before = s.start ∧
    byteSize piece = s.length

theorem Cursor.isSome_at?_iff {text : List Char} {offset : Nat} :
    (at? text offset).isSome ↔
      ∃ before after, text = before ++ after ∧ byteSize before = offset := by
  rw [Option.isSome_iff_exists]
  constructor
  · rintro ⟨c, hc⟩
    obtain ⟨rfl, rfl⟩ := at?_eq_some_iff.1 hc
    exact ⟨c.before.reverse, c.after, rfl, Text.byteSize_reverse _⟩
  · rintro ⟨before, after, rfl, rfl⟩
    exact ⟨⟨before.reverse, after⟩, at?_eq_some_iff.2
      ⟨by simp [Cursor.text], Text.byteSize_reverse before⟩⟩

namespace Span

variable {text : List Char} {s : Span}

theorem placedIn_emptyAt (text : List Char) : (emptyAt (byteSize text)).PlacedIn text :=
  have hend : (Cursor.at? text (byteSize text)).isSome :=
    Cursor.isSome_at?_iff.2 ⟨text, [], (List.append_nil text).symm, rfl⟩
  ⟨Nat.le_refl _, Nat.le_refl _, hend, hend⟩

theorem unionClosed_placedIn (text : List Char) : UnionClosed (PlacedIn text) := by
  intro s t hs ht
  refine ⟨?_, Nat.max_le.2 ⟨hs.bounded, ht.bounded⟩, ?_, ?_⟩
  · exact (Nat.min_le_left _ _).trans (hs.ordered.trans (Nat.le_max_left _ _))
  · rcases Nat.le_total s.start t.start with h | h
    · rw [union, Nat.min_eq_left h]
      exact hs.start_between
    · rw [union, Nat.min_eq_right h]
      exact ht.start_between
  · rcases Nat.le_total s.stop t.stop with h | h
    · rw [union, Nat.max_eq_right h]
      exact ht.stop_between
    · rw [union, Nat.max_eq_left h]
      exact hs.stop_between

theorem PlacedIn.selects (h : s.PlacedIn text) : s.Selects text := by
  obtain ⟨before, after, htext, hstart⟩ := Cursor.isSome_at?_iff.1 h.start_between
  obtain ⟨upTo, after', htext', hstop⟩ := Cursor.isSome_at?_iff.1 h.stop_between
  have hle : byteSize before ≤ byteSize upTo := by
    rw [hstart, hstop]
    exact h.ordered
  -- Of two beginnings of the text the one with fewer bytes begins the other.
  have hprefix : before <+: upTo := by
    rcases List.prefix_or_prefix_of_prefix ⟨after, htext.symm⟩ ⟨after', htext'.symm⟩ with hp | hp
    · exact hp
    · obtain ⟨more, rfl⟩ := hp
      rw [Text.byteSize_append] at hle
      have hmore : more = [] := by
        by_contra hn
        have := Text.byteSize_pos hn
        omega
      exact ⟨[], by rw [hmore, List.append_nil, List.append_nil]⟩
  obtain ⟨piece, rfl⟩ := hprefix
  refine ⟨before, piece, after', htext', hstart, ?_⟩
  rw [Text.byteSize_append] at hstop
  rw [length]
  omega

end Span

theorem Token.StandsIn.placedIn {t : Token} {text : List Char} (h : t.StandsIn text) :
    t.span.PlacedIn text := by
  obtain ⟨before, after, rfl, hspan⟩ := h
  rw [hspan]
  refine ⟨Nat.le_add_right _ _, ?_, ?_, ?_⟩
  · rw [Text.byteSize_append, Text.byteSize_append]
    exact Nat.le_add_right _ _
  · exact Cursor.isSome_at?_iff.2 ⟨before, t.text.toList ++ after, List.append_assoc .., rfl⟩
  · exact Cursor.isSome_at?_iff.2 ⟨before ++ t.text.toList, after, rfl, Text.byteSize_append _ _⟩

theorem Fault.length_primary (f : Fault) :
    (f.diagnostic.labels.filter Label.isPrimary).length = 1 := by
  cases f <;> rfl

structure Fault.MarksAt (Q : Span → Prop) (f : Fault) : Prop where
  syntactic : f.diagnostic.isLexical = false
  labels : ∀ l ∈ f.diagnostic.labels, Q l.span

theorem Fault.At.marksAt {f : Fault} (h : f.At Q) : f.MarksAt Q := by
  refine ⟨?_, h.labels⟩
  have hline := h.isOfLine
  cases f with
  | unexpectedText | unterminatedString => cases hline
  | unexpectedToken | endOfLine | endOfInput | notANumber | notWholeBits | reversedRange | noLinks
    | noPeriod => rfl

theorem Fault.code_of_syntactic {f : Fault} (h : f.diagnostic.isLexical = false) :
    ∃ c ∈ [Code.E100, .E101, .E102, .E103], f.diagnostic.code = some c := by
  cases f with
  | unexpectedText | unterminatedString => cases h
  | unexpectedToken | endOfLine | endOfInput | notANumber | notWholeBits | reversedRange | noLinks
    | noPeriod => exact ⟨_, by decide, rfl⟩

namespace Lexicon

theorem code_unmatchedFault (t : Token) :
    ∃ c ∈ [Code.E001, .E002], (unmatchedFault t).diagnostic.code = some c := by
  unfold unmatchedFault
  split
  · exact ⟨_, List.mem_cons_of_mem _ List.mem_cons_self, rfl⟩
  · exact ⟨_, List.mem_cons_self, rfl⟩

theorem labels_unmatchedFault (t : Token) :
    ∀ l ∈ (unmatchedFault t).diagnostic.labels, l.span = t.span := by
  unfold unmatchedFault
  split <;> exact List.forall_mem_singleton.2 rfl

end Lexicon

namespace Grammar.Timeline

open DiagramText.Timeline (Section)

theorem foldl_step_faults (entries : List Entry) (sections : List Section) (faults : List Fault) :
    ∃ spans : List Span, spans.Sublist (entries.filterMap Entry.continuation?) ∧
      (entries.foldl step (sections, faults)).2 = faults ++ spans.map .noPeriod := by
  induction entries generalizing sections faults with
  | nil => exact ⟨[], .slnil, (List.append_nil faults).symm⟩
  | cons e entries ih =>
    rw [List.foldl_cons]
    cases e with
    | «section» title => exact ih _ faults
    | period p => exact ih _ faults
    | continuation events =>
      rw [step]
      split
      · obtain ⟨spans, hs, hf⟩ := ih _ faults
        exact ⟨spans, hs.cons _, hf⟩
      · obtain ⟨spans, hs, hf⟩ := ih sections (faults ++ [.noPeriod events.span])
        exact ⟨events.span :: spans, hs.cons_cons _, by rw [hf, List.append_assoc]; rfl⟩

end Grammar.Timeline

namespace Kind

variable {k : Kind} {textEnd : Nat}

theorem assemble_at (header : k.grammar.Header) {items : List k.grammar.Item}
    (h : ∀ i ∈ items, k.Guarantees Q i) :
    ∀ f ∈ (k.grammar.assemble header items).2, f.MarksAt Q := by
  intro f hf
  cases k with
  | info | pie | packet | sankey | architecture => exact absurd hf List.not_mem_nil
  | timeline =>
    obtain ⟨spans, hs, hfaults⟩ :=
      Grammar.Timeline.foldl_step_faults (Statement.entries items) [] []
    have hf : f ∈ [] ++ spans.map Fault.noPeriod := hfaults ▸ hf
    rw [List.nil_append] at hf
    obtain ⟨span, hspan, rfl⟩ := List.mem_map.1 hf
    obtain ⟨e, he, hcontinuation⟩ := List.mem_filterMap.1 (hs.subset hspan)
    have hq := Statement.forall_entries h e he span hcontinuation
    exact ⟨rfl, List.forall_mem_singleton.2 hq⟩

theorem eq_noLinks_of_lacks {d : Diagram} {fault : Nat → Fault}
    (h : k.grammar.lacks d = some fault) : fault = .noLinks := by
  cases k with
  | info | pie | packet | timeline | architecture => cases h
  | sankey =>
    cases d with
    | info | pie | packet | timeline | architecture => cases h
    | sankey d =>
      obtain ⟨-, hf⟩ := Option.ite_none_right_eq_some.1 h
      exact (Option.some.inj hf).symm

theorem body_at (hQ : Span.UnionClosed Q) (he : Q (.emptyAt textEnd)) (header : k.grammar.Header)
    {ts : List Token} (ht : TokensAt Q ts) :
    ∀ f ∈ (k.grammar.body textEnd header ts).2, f.MarksAt Q := by
  have hresults := statements_at (k.meets_statement hQ) he ht
  obtain ⟨tree, late, ha⟩ : ∃ tree late, k.grammar.assemble header
      (itemsOf (statements k.grammar.statement textEnd ts)) = (tree, late) := ⟨_, _, rfl⟩
  have hlate := assemble_at header (itemsOf_at hresults)
  rw [ha] at hlate
  have hall : ∀ f ∈ faultsOf (statements k.grammar.statement textEnd ts) ++ late, f.MarksAt Q :=
    List.forall_mem_append.2 ⟨fun f hf ↦ (faultsOf_at hresults f hf).marksAt, hlate⟩
  rw [Grammar.body_of_assemble ha]
  cases hf : faultsOf (statements k.grammar.statement textEnd ts) ++ late with
  | cons f fs =>
    rw [hf] at hall
    exact hall
  | nil =>
    cases hl : k.grammar.lacks tree with
    | some fault =>
      obtain rfl := eq_noLinks_of_lacks hl
      exact List.forall_mem_singleton.2 ⟨rfl, List.forall_mem_singleton.2 he⟩
    | none => exact fun f hf ↦ absurd hf List.not_mem_nil

theorem tree_at (hQ : Span.UnionClosed Q) (he : Q (.emptyAt textEnd)) {ts : List Token}
    (ht : TokensAt Q ts) : ∀ f ∈ (k.grammar.tree textEnd ts).2, f.MarksAt Q := by
  unfold Grammar.tree
  cases ho : k.grammar.opening ts with
  | accepted header rest =>
    obtain ⟨-, hs⟩ := k.meets_opening.outcome ht ho
    exact body_at hQ he header (ht.of_suffix hs)
  | refused why rest =>
    have hfault := (k.meets_opening.outcome ht ho).fault_at ht fun _ ↦ he
    exact List.forall_mem_singleton.2 hfault.marksAt

theorem lexerErrors_eq (k : Kind) (text : String) :
    (k.grammar.parse text).lexerErrors =
      ((k.grammar.lexicon.tokenize text.toList).tokens.filter (·.kind = .invalid)).map
        fun t ↦ (Lexicon.unmatchedFault t).diagnostic := by
  obtain ⟨c', -, hw⟩ := k.grammar.lexicon.walks_scan (.start text.toList)
  exact hw.errors_eq k.kind_ne_invalid

theorem parserErrors_at (k : Kind) {text : String} {e : Diagnostic}
    (h : e ∈ (k.grammar.parse text).parserErrors) :
    ∃ f : Fault, f.MarksAt (Span.PlacedIn text.toList) ∧ f.diagnostic = e := by
  obtain ⟨hstands, -⟩ := Lexicon.tokenize_lossless k.grammar.lexicon text.toList
  obtain ⟨f, hf, rfl⟩ := List.mem_map.1 h
  exact ⟨f, tree_at (Span.unionClosed_placedIn text.toList) (Span.placedIn_emptyAt text.toList)
    (fun t ht ↦ (hstands t ht).2.placedIn) f hf, rfl⟩

/-- Every diagnostic is of its stage and marks one place as the offending one, and all that it marks
are pieces of the text; what the lexer marks lies in order and apart. -/
theorem diagnostics_placed (k : Kind) (text : String) :
    (∀ e ∈ (k.grammar.parse text).lexerErrors, ∃ c ∈ [Code.E001, .E002], e.code = some c) ∧
    (∀ e ∈ (k.grammar.parse text).parserErrors,
      ∃ c ∈ [Code.E100, .E101, .E102, .E103], e.code = some c) ∧
    (∀ e ∈ (k.grammar.parse text).lexerErrors ++ (k.grammar.parse text).parserErrors,
      (e.labels.filter Label.isPrimary).length = 1 ∧
        ∀ l ∈ e.labels, l.span.PlacedIn text.toList) ∧
    (k.grammar.parse text).lexerErrors.Pairwise (fun d e ↦ ∀ l ∈ d.labels, ∀ m ∈ e.labels,
      l.span.start < m.span.start ∧ l.span.stop ≤ m.span.start) ∧
    (∀ e, k.parse text = .error e → ∀ r ∈ (Failure.parse e text).reports,
      r.source = some text ∧ ∀ l ∈ r.labels, l.span.Selects text.toList) := by
  obtain ⟨hstands, hpairwise, -⟩ := Lexicon.tokenize_lossless k.grammar.lexicon text.toList
  have hlexer : ∀ e ∈ (k.grammar.parse text).lexerErrors,
      ∃ t ∈ (k.grammar.lexicon.tokenize text.toList).tokens,
        (Lexicon.unmatchedFault t).diagnostic = e := by
    intro e he
    rw [lexerErrors_eq] at he
    obtain ⟨t, ht, rfl⟩ := List.mem_map.1 he
    exact ⟨t, List.mem_of_mem_filter ht, rfl⟩
  have hplaced : ∀ e ∈ (k.grammar.parse text).lexerErrors ++ (k.grammar.parse text).parserErrors,
      (e.labels.filter Label.isPrimary).length = 1 ∧
        ∀ l ∈ e.labels, l.span.PlacedIn text.toList := by
    intro e he
    rcases List.mem_append.1 he with he | he
    · obtain ⟨t, ht, rfl⟩ := hlexer e he
      refine ⟨Fault.length_primary _, fun l hl ↦ ?_⟩
      rw [Lexicon.labels_unmatchedFault t l hl]
      exact (hstands t ht).2.placedIn
    · obtain ⟨f, hf, rfl⟩ := k.parserErrors_at he
      exact ⟨f.length_primary, hf.labels⟩
  refine ⟨fun e he ↦ ?_, fun e he ↦ ?_, hplaced, ?_, fun e he r hr ↦ ?_⟩
  · obtain ⟨t, -, rfl⟩ := hlexer e he
    exact Lexicon.code_unmatchedFault t
  · obtain ⟨f, hf, rfl⟩ := k.parserErrors_at he
    exact Fault.code_of_syntactic hf.syntactic
  · rw [lexerErrors_eq, List.pairwise_map]
    refine (hpairwise.filter _).imp_of_mem fun {t u} ht _ htu l hl m hm ↦ ?_
    have hlt := (hstands t (List.mem_of_mem_filter ht)).1
    rw [Lexicon.labels_unmatchedFault t l hl, Lexicon.labels_unmatchedFault u m hm]
    omega
  · obtain ⟨hl, hp⟩ := ParseError.ofDiagnostics?_eq_some (eq_of_parse_eq_error he)
    have hreport : ∃ d ∈ e.lexerErrors ++ e.parserErrors, ∃ stage : Stage,
        stage.report text d = r := by
      rcases List.mem_append.1 hr with hr | hr
      · obtain ⟨d, hd, rfl⟩ := List.mem_map.1 hr
        exact ⟨d, List.mem_append_left _ hd, .lexer, rfl⟩
      · obtain ⟨d, hd, rfl⟩ := List.mem_map.1 hr
        exact ⟨d, List.mem_append_right _ hd, .parser, rfl⟩
    obtain ⟨d, hd, stage, rfl⟩ := hreport
    rw [hl, hp] at hd
    exact ⟨rfl, fun l hl ↦ ((hplaced d hd).2 l hl).selects⟩

def crooked : String :=
  "pie\né!\n'x' : \"é\n"

theorem diagnostics_placed_crooked :
    let e := (Fault.unexpectedToken ⟨.invalid, "\"é", ⟨14, 17⟩⟩ "section value").diagnostic
    (Kind.pie.grammar.parse crooked).lexerErrors.map Diagnostic.primarySpan =
      [some ⟨4, 7⟩, some ⟨14, 17⟩] ∧
    e ∈ (Kind.pie.grammar.parse crooked).parserErrors ∧
    (∃ c ∈ [Code.E100, .E101, .E102, .E103], e.code = some c) ∧
    ∀ l ∈ e.labels, l.span.PlacedIn crooked.toList := by
  intro e
  have he : e ∈ (Kind.pie.grammar.parse crooked).parserErrors := by decide +kernel
  obtain ⟨-, hcode, hplaced, -⟩ := diagnostics_placed .pie crooked
  exact ⟨by decide +kernel, he, hcode e he, (hplaced e (List.mem_append_right _ he)).2⟩

end Kind

end DiagramText
