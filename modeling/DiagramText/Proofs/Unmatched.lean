import DiagramText.Proofs.AlikeTrees
import DiagramText.Proofs.Lossless

namespace DiagramText

open Production

variable {α β : Type}

def Clean (ts : List Token) : Prop :=
  ∀ t ∈ ts, t.kind ≠ .invalid

theorem clean_nil : Clean [] := by
  simp [Clean]

theorem clean_cons_iff {t : Token} {ts : List Token} :
    Clean (t :: ts) ↔ t.kind ≠ .invalid ∧ Clean ts :=
  List.forall_mem_cons

theorem clean_dropWhile_isNewline {ts : List Token} :
    Clean (ts.dropWhile Token.isNewline) ↔ Clean ts := by
  induction ts with
  | nil => rfl
  | cons t ts ih =>
    cases ht : t.isNewline with
    | true =>
      have hk : t.kind = .newline := of_decide_eq_true ht
      rw [List.dropWhile_cons_of_pos ht, ih, clean_cons_iff, hk]
      simp
    | false => rw [List.dropWhile_cons_of_neg (by simp [ht])]

namespace Production

/-- The production takes no invalid token. -/
def TakesClean (p : Production α) : Prop :=
  ∀ ts a rest, p ts = .accepted a rest → Clean rest → Clean ts

theorem takesClean_pure (a : α) : TakesClean (pure a : Production α) := by
  intro ts b rest h hc
  obtain ⟨-, rfl⟩ := Outcome.accepted.inj h
  exact hc

theorem takesClean_expected (what : String) : TakesClean (expected what : Production α) := by
  intro ts a rest h
  cases h

theorem takesClean_invalid (f : Fault) : TakesClean (invalid f : Production α) := by
  intro ts a rest h
  cases h

theorem takesClean_nextKind : TakesClean nextKind := by
  intro ts k rest h hc
  obtain ⟨-, rfl⟩ := Outcome.accepted.inj h
  exact hc

theorem takesClean_newlines : TakesClean newlines := by
  intro ts u rest h hc
  obtain ⟨-, rfl⟩ := Outcome.accepted.inj h
  exact clean_dropWhile_isNewline.1 hc

theorem TakesClean.bind {p : Production α} {f : α → Production β} (hp : TakesClean p)
    (hf : ∀ a, TakesClean (f a)) : TakesClean (p >>= f) := by
  intro ts b rest h hc
  obtain ⟨a, mid, ha, hb⟩ := bind_eq_accepted_iff.1 h
  exact hp ts a mid ha (hf a mid b rest hb hc)

theorem TakesClean.bind_pure {p : Production α} (hp : TakesClean p) (f : α → β) :
    TakesClean (p >>= fun a ↦ pure (f a)) :=
  hp.bind fun _ ↦ takesClean_pure _

theorem takesClean_endOfLine : TakesClean endOfLine := by
  intro ts u rest h hc
  cases ts with
  | nil => exact clean_nil
  | cons t ts =>
    simp only [endOfLine] at h
    split at h
    · rename_i ht
      obtain ⟨-, rfl⟩ := Outcome.accepted.inj h
      rw [← clean_dropWhile_isNewline, List.dropWhile_cons_of_pos ht]
      exact hc
    · cases h

theorem takesClean_satisfying {what : String} {f : Token → Option α}
    (hf : ∀ t, t.kind = .invalid → f t = none) : TakesClean (satisfying what f) := by
  intro ts a rest h hc
  obtain ⟨t, rfl, ht⟩ := satisfying_eq_accepted h
  refine clean_cons_iff.2 ⟨fun hk ↦ ?_, hc⟩
  rw [hf t hk] at ht
  cases ht

theorem takesClean_token {kind : Token.Kind} (hk : kind ≠ .invalid) (what : String) :
    TakesClean (token kind what) :=
  takesClean_satisfying fun _ ht ↦ if_neg fun h ↦ hk (h.symm.trans ht)

theorem takesClean_keyword (k : Keyword) : TakesClean (keyword k) :=
  takesClean_token (by simp) k.text

theorem takesClean_symbol (s : Symbol) : TakesClean (symbol s) :=
  takesClean_token (by simp) s.text

theorem takesClean_keywordOf (ks : List Keyword) (what : String) :
    TakesClean (keywordOf ks what) :=
  takesClean_satisfying fun t ht ↦ by simp [ht]

theorem takesClean_optional {p : Production α} (hp : TakesClean p) : TakesClean (optional p) := by
  intro ts o rest h hc
  unfold optional at h
  split at h
  · rename_i a rest' ha
    obtain ⟨-, rfl⟩ := Outcome.accepted.inj h
    exact hp ts a rest' ha hc
  · obtain ⟨-, rfl⟩ := Outcome.accepted.inj h
    exact hc
  · cases h

theorem takesClean_many {p : Production α} (hp : TakesClean p) : TakesClean (many p) := by
  intro ts as rest h hc
  induction hl : ts.length using Nat.strongRecOn generalizing ts as with
  | ind n ih =>
    subst hl
    rw [many] at h
    split at h
    · rename_i a mid ha
      split at h
      · rename_i hlt
        split at h
        · rename_i as' rest' hm
          obtain ⟨-, rfl⟩ := Outcome.accepted.inj h
          exact hp ts a mid ha (ih mid.length hlt mid as' hm rfl)
        · cases h
      · obtain ⟨-, rfl⟩ := Outcome.accepted.inj h
        exact hc
    · obtain ⟨-, rfl⟩ := Outcome.accepted.inj h
      exact hc
    · cases h

theorem takesClean_many1 {p : Production α} (hp : TakesClean p) : TakesClean (many1 p) :=
  hp.bind fun _ ↦ (takesClean_many hp).bind_pure _

theorem takesClean_value (read : Reader) {kind : Token.Kind} (hk : kind ≠ .invalid)
    (what : String) : TakesClean (value read kind what) := by
  intro ts v rest h hc
  unfold value at h
  split at h
  · cases h
  · rename_i t rest' ht
    split at h
    · obtain ⟨-, rfl⟩ := Outcome.accepted.inj h
      exact takesClean_token hk what ts t rest' ht hc
    · cases h

theorem takesClean_text (read : Reader) {kind : Token.Kind} (hk : kind ≠ .invalid)
    (what : String) : TakesClean (text read kind what) :=
  (takesClean_value read hk what).bind_pure _

theorem takesClean_number (read : Reader) {kind : Token.Kind} (hk : kind ≠ .invalid)
    (what : String) : TakesClean (number read kind what) :=
  (takesClean_value read hk what).bind fun v ↦ by
    cases v.value with
    | number x => exact takesClean_pure _
    | text s => exact takesClean_invalid _

end Production

namespace Annotation

theorem takesClean_line (read : Reader) {kind : Token.Kind} (hk : kind ≠ .invalid) (what : String)
    (make : String → Annotation) : TakesClean (line read kind what make) :=
  (takesClean_text read hk what).bind fun _ ↦ takesClean_endOfLine.bind_pure _

theorem takesClean_production (read : Reader) : TakesClean (production read) := by
  refine takesClean_nextKind.bind fun k ↦ ?_
  split
  · exact takesClean_line read (by simp) _ _
  · exact takesClean_line read (by simp) _ _
  · exact takesClean_line read (by simp) _ _
  · exact takesClean_expected _

end Annotation

theorem Statement.takesClean_production (read : Reader) {entry : Production α}
    (he : TakesClean entry) : TakesClean (Statement.production read entry) := by
  refine takesClean_nextKind.bind fun k ↦ ?_
  split
  · refine TakesClean.bind_pure ?_ _
    exact Annotation.takesClean_production read
  · exact he.bind_pure _

namespace Grammar

theorem Info.takesClean_header : TakesClean Info.header :=
  (takesClean_keyword _).bind fun _ ↦
    (takesClean_optional
      (takesClean_newlines.bind fun _ ↦ takesClean_keyword _)).bind_pure _

theorem Pie.takesClean_header : TakesClean Pie.header :=
  (takesClean_keyword _).bind fun _ ↦ (takesClean_optional (takesClean_keyword _)).bind_pure _

theorem Pie.takesClean_entry : TakesClean Pie.entry := by
  refine takesClean_nextKind.bind fun k ↦ ?_
  split
  · exact (takesClean_text _ (by simp) _).bind fun _ ↦ (takesClean_symbol _).bind fun _ ↦
      (takesClean_number _ (by simp) _).bind fun _ ↦ takesClean_endOfLine.bind_pure _
  · exact takesClean_expected _

theorem Packet.takesClean_bit (what : String) : TakesClean (Packet.bit what) :=
  (takesClean_number _ (by simp) what).bind fun x ↦ by
    split
    · exact takesClean_pure _
    · exact takesClean_invalid _

theorem Packet.takesClean_label : TakesClean Packet.label :=
  (takesClean_symbol _).bind fun _ ↦ (takesClean_text _ (by simp) _).bind fun _ ↦
    takesClean_endOfLine.bind_pure _

theorem Packet.takesClean_range : TakesClean Packet.range := by
  refine (Packet.takesClean_bit _).bind fun first ↦ ?_
  refine (takesClean_optional
    ((takesClean_symbol _).bind fun _ ↦ Packet.takesClean_bit _)).bind fun last ↦ ?_
  split
  · exact takesClean_invalid _
  · exact Packet.takesClean_label.bind_pure _

theorem Packet.takesClean_width : TakesClean Packet.width :=
  (takesClean_symbol _).bind fun _ ↦ (Packet.takesClean_bit _).bind fun _ ↦
    Packet.takesClean_label.bind_pure _

theorem Packet.takesClean_entry : TakesClean Packet.entry := by
  refine takesClean_nextKind.bind fun k ↦ ?_
  split
  · exact Packet.takesClean_range
  · exact Packet.takesClean_width
  · exact takesClean_expected _

theorem Sankey.takesClean_header : TakesClean Sankey.header :=
  (takesClean_keywordOf _ _).bind fun _ ↦ takesClean_endOfLine

theorem Sankey.takesClean_entry : TakesClean Sankey.entry := by
  refine takesClean_nextKind.bind fun k ↦ ?_
  split
  · exact (takesClean_text _ (by simp) _).bind fun _ ↦ (takesClean_symbol _).bind fun _ ↦
      (takesClean_text _ (by simp) _).bind fun _ ↦ (takesClean_symbol _).bind fun _ ↦
      (takesClean_number _ (by simp) _).bind fun _ ↦ takesClean_endOfLine.bind_pure _
  · exact takesClean_expected _

theorem Timeline.takesClean_event : TakesClean Timeline.event :=
  takesClean_text _ (by simp) _

theorem Timeline.takesClean_entry : TakesClean Timeline.entry := by
  refine takesClean_nextKind.bind fun k ↦ ?_
  split
  · exact (takesClean_text _ (by simp) _).bind fun _ ↦ takesClean_endOfLine.bind_pure _
  · exact takesClean_expected _
  · exact (takesClean_text _ (by simp) _).bind fun _ ↦
      (takesClean_many Timeline.takesClean_event).bind fun _ ↦ takesClean_endOfLine.bind_pure _
  · exact (takesClean_many1 Timeline.takesClean_event).bind fun _ ↦ takesClean_endOfLine.bind_pure _
  · exact takesClean_expected _

namespace Architecture

theorem takesClean_identifier (what : String) : TakesClean (identifier what) :=
  (takesClean_text _ (by simp) what).bind_pure _

theorem takesClean_textOf? {kind : Token.Kind} (hk : kind ≠ .invalid) :
    TakesClean (textOf? kind) := by
  refine takesClean_nextKind.bind fun k ↦ ?_
  split
  · exact (takesClean_text _ hk _).bind_pure _
  · exact takesClean_pure _

theorem takesClean_parent : TakesClean parent :=
  takesClean_optional ((takesClean_keyword _).bind fun _ ↦ takesClean_identifier _)

theorem takesClean_group : TakesClean group :=
  (takesClean_keyword _).bind fun _ ↦ (takesClean_identifier _).bind fun _ ↦
    (takesClean_textOf? (by simp)).bind fun _ ↦ (takesClean_textOf? (by simp)).bind fun _ ↦
    takesClean_parent.bind fun _ ↦ takesClean_endOfLine.bind_pure _

theorem takesClean_serviceIcon : TakesClean serviceIcon := by
  refine (takesClean_textOf? (by simp)).bind fun t ↦ ?_
  split
  · exact takesClean_pure _
  · exact (takesClean_textOf? (by simp)).bind_pure _

theorem takesClean_service : TakesClean service :=
  (takesClean_keyword _).bind fun _ ↦ (takesClean_identifier _).bind fun _ ↦
    takesClean_serviceIcon.bind fun _ ↦ (takesClean_textOf? (by simp)).bind fun _ ↦
    takesClean_parent.bind fun _ ↦ takesClean_endOfLine.bind_pure _

theorem takesClean_junction : TakesClean junction :=
  (takesClean_keyword _).bind fun _ ↦ (takesClean_identifier _).bind fun _ ↦
    takesClean_parent.bind fun _ ↦ takesClean_endOfLine.bind_pure _

theorem takesClean_side : TakesClean side :=
  takesClean_satisfying fun t ht ↦ if_neg (by simp [ht])

theorem takesClean_hasSymbol (s : Symbol) : TakesClean (hasSymbol s) :=
  (takesClean_optional (takesClean_symbol s)).bind_pure _

theorem takesClean_edgeLine : TakesClean edgeLine := by
  refine takesClean_nextKind.bind fun k ↦ ?_
  split
  · exact (takesClean_symbol _).bind_pure _
  · exact (takesClean_symbol _).bind fun _ ↦ (takesClean_text _ (by simp) _).bind fun _ ↦
      (takesClean_symbol _).bind_pure _

theorem takesClean_edge : TakesClean edge :=
  (takesClean_identifier _).bind fun _ ↦ (takesClean_hasSymbol _).bind fun _ ↦
    (takesClean_symbol _).bind fun _ ↦ takesClean_side.bind fun _ ↦
    (takesClean_hasSymbol _).bind fun _ ↦ takesClean_edgeLine.bind fun _ ↦
    (takesClean_hasSymbol _).bind fun _ ↦ takesClean_side.bind fun _ ↦
    (takesClean_symbol _).bind fun _ ↦ (takesClean_identifier _).bind fun _ ↦
    (takesClean_hasSymbol _).bind fun _ ↦ takesClean_endOfLine.bind_pure _

theorem takesClean_entry : TakesClean entry := by
  refine takesClean_nextKind.bind fun k ↦ ?_
  split
  · exact takesClean_group.bind_pure _
  · exact takesClean_service.bind_pure _
  · exact takesClean_junction.bind_pure _
  · exact takesClean_edge.bind_pure _
  · exact takesClean_expected _

end Architecture

end Grammar

theorem Kind.takesClean_header (k : Kind) : TakesClean k.grammar.header := by
  cases k with
  | info => exact Grammar.Info.takesClean_header
  | pie => exact Grammar.Pie.takesClean_header
  | sankey => exact Grammar.Sankey.takesClean_header
  | timeline => exact takesClean_keyword _
  | packet | architecture => exact takesClean_keywordOf _ _

theorem Kind.takesClean_statement (k : Kind) : TakesClean k.grammar.statement := by
  cases k with
  | info => exact Annotation.takesClean_production _
  | pie => exact Statement.takesClean_production _ Grammar.Pie.takesClean_entry
  | packet => exact Statement.takesClean_production _ Grammar.Packet.takesClean_entry
  | sankey => exact Statement.takesClean_production _ Grammar.Sankey.takesClean_entry
  | timeline => exact Statement.takesClean_production _ Grammar.Timeline.takesClean_entry
  | architecture => exact Statement.takesClean_production _ Grammar.Architecture.takesClean_entry

theorem clean_of_statements {statement : Production α} (hs : EndsLine statement)
    (hc : TakesClean statement) (textEnd : Nat) {ts : List Token}
    (hf : faultsOf (statements statement textEnd ts) = []) : Clean ts := by
  -- Each statement takes its line, so what is left to read falls with every one of them.
  induction hl : ts.length using Nat.strongRecOn generalizing ts with
  | ind n ih =>
    subst hl
    have hle : (ts.dropWhile Token.isNewline).length ≤ ts.length :=
      (List.dropWhile_suffix _).length_le
    rw [← clean_dropWhile_isNewline]
    cases h : ts.dropWhile Token.isNewline with
    | nil => exact clean_nil
    | cons u us =>
      rw [h] at hle
      have hu : u.isNewline = false := by
        have := List.head?_dropWhile_not Token.isNewline ts
        rw [h] at this
        simpa using this
      rw [statements_of_line h] at hf
      cases ho : statement (u :: us) with
      | accepted a rest =>
        have hlt := hs.length_lt hu ho
        rw [ho] at hf
        simp only [hlt, if_true] at hf
        exact hc _ a rest ho (ih rest.length (by omega) hf rfl)
      | refused why rest =>
        rw [ho] at hf
        cases hf

theorem Lexicon.errors_eq_nil_of_clean {l : Lexicon} (hl : ∀ r ∈ l.rules, r.kind ≠ .invalid)
    {text : List Char} (h : Clean (l.tokenize text).tokens) : (l.tokenize text).errors = [] := by
  obtain ⟨c', -, hw⟩ := l.walks_scan (.start text)
  have he := hw.forall₂_errors hl
  have hn : (l.scan (.start text)).tokens.filter (·.kind = .invalid) = [] :=
    List.filter_eq_nil_iff.2 fun t ht ↦ by simpa using h t ht
  rw [hn] at he
  exact List.forall₂_nil_left_iff.1 he

theorem Kind.kind_ne_invalid (k : Kind) : ∀ r ∈ k.grammar.lexicon.rules, r.kind ≠ .invalid := by
  have hb : ∀ r ∈ Lexicon.base.rules, r.kind ≠ .invalid := by decide
  have hs : ∀ s ∈ k.shapes, s.kind ≠ .invalid := by cases k <;> decide
  rw [k.rules_lexicon]
  intro r hr
  rcases List.mem_append.1 hr with hr | hr
  · exact hb r hr
  · obtain ⟨s, hm, rfl⟩ := List.mem_map.1 hr
    exact hs s hm

namespace Grammar

variable {g : Grammar} {textEnd : Nat} {header : g.Header} {ts : List Token}

theorem body_complete (complete : Diagram → Diagram) (h : (g.body textEnd header ts).2 ≠ []) :
    body { g with complete } textEnd header ts = g.body textEnd header ts := by
  obtain ⟨tree, late, ha⟩ : ∃ tree late,
      g.assemble header (itemsOf (statements g.statement textEnd ts)) = (tree, late) :=
    ⟨_, _, rfl⟩
  rw [body_of_assemble ha] at h ⊢
  rw [@body_of_assemble { g with complete } textEnd header ts tree late ha]
  cases hf : faultsOf (statements g.statement textEnd ts) ++ late with
  | cons f fs => rfl
  | nil =>
    rw [hf] at h
    cases hl : g.lacks tree with
    | some fault => rfl
    | none =>
      rw [hl] at h
      exact absurd rfl h

theorem tree_complete (complete : Diagram → Diagram) (h : (g.tree textEnd ts).2 ≠ []) :
    tree { g with complete } textEnd ts = g.tree textEnd ts := by
  have ho : opening { g with complete } ts = g.opening ts := rfl
  unfold tree at h ⊢
  rw [ho]
  cases hg : g.opening ts with
  | refused why rest => rfl
  | accepted header rest =>
    rw [hg] at h
    have hb := body_complete complete (show (g.body textEnd header rest).2 ≠ [] from h)
    exact congrArg (fun b : Diagram × List Fault ↦ (some b.1, b.2)) hb

theorem parse_complete (complete : Diagram → Diagram) {text : String}
    (h : (g.parse text).parserErrors ≠ []) :
    parse { g with complete } text = g.parse text := by
  have hn : (g.tree (Text.byteSize text.toList) (g.lexicon.tokenize text.toList).tokens).2 ≠ [] :=
    fun hn ↦ h (by simp [parse, hn])
  simp only [parse, tree_complete complete hn]

theorem length_faults_of_no_tree (h : (g.tree textEnd ts).1 = none) :
    (g.tree textEnd ts).2.length = 1 := by
  unfold tree at h ⊢
  cases hg : g.opening ts with
  | refused why rest => rfl
  | accepted header rest =>
    rw [hg] at h
    cases h

end Grammar

theorem Kind.clean_of_tree {k : Kind} {textEnd : Nat} {ts : List Token} {d : Diagram}
    (h : k.grammar.tree textEnd ts = (some d, [])) : Clean ts := by
  obtain ⟨header, rest, ho, hb⟩ := Grammar.tree_eq_iff.1 h
  have hrest := clean_of_statements k.endsLine_statement k.takesClean_statement textEnd
    (Grammar.body_eq_iff.1 hb).1
  exact (takesClean_newlines.bind fun _ ↦ k.takesClean_header) ts header rest ho hrest

theorem Kind.parse_of_no_parserErrors {k : Kind} {text : String}
    (h : (k.grammar.parse text).parserErrors = []) : ∃ d, k.parse text = .ok d := by
  obtain ⟨tree, faults, ht⟩ : ∃ tree faults, k.grammar.tree (Text.byteSize text.toList)
      (k.grammar.lexicon.tokenize text.toList).tokens = (tree, faults) := ⟨_, _, rfl⟩
  have hf : faults = [] := by
    simpa only [Grammar.parse, ht, List.map_eq_nil_iff] using h
  subst hf
  cases tree with
  | none =>
    have := Grammar.length_faults_of_no_tree (congrArg Prod.fst ht)
    rw [ht] at this
    cases this
  | some d =>
    have he := Lexicon.errors_eq_nil_of_clean k.kind_ne_invalid (Kind.clean_of_tree ht)
    exact ⟨d, Kind.parse_eq_ok_iff.2 ⟨he, ht⟩⟩

theorem Fault.labels_ne_nil (f : Fault) : f.diagnostic.labels ≠ [] := by
  cases f <;> simp [diagnostic]

theorem ParseError.ofDiagnostics?_eq_some {lexer parser : List Diagnostic} {e : ParseError}
    (h : ofDiagnostics? lexer parser = some e) :
    e.lexerErrors = lexer ∧ e.parserErrors = parser := by
  unfold ofDiagnostics? at h
  split at h
  · obtain rfl := Option.some.inj h
    exact ⟨rfl, rfl⟩
  · cases h

/-- The failure for want of a tree has a diagnostic without a label, and no fault is told so. -/
theorem Grammar.parserErrors_ne_noTree (g : Grammar) (text : String) :
    (g.parse text).parserErrors ≠ ParseResult.noTree.parserErrors := by
  intro h
  have hm : ⟨some .E101, "no syntax tree was produced", [], none⟩ ∈ (g.parse text).parserErrors := by
    rw [h]
    exact List.mem_singleton_self _
  obtain ⟨f, -, hf⟩ := List.mem_map.1 hm
  exact f.labels_ne_nil (congrArg Diagnostic.labels hf)

theorem Kind.eq_of_parse_eq_error {k : Kind} {text : String} {e : ParseError}
    (h : k.parse text = .error e) :
    ParseError.ofDiagnostics? (k.grammar.parse text).lexerErrors
      (k.grammar.parse text).parserErrors = some e := by
  cases hd : ParseError.ofDiagnostics? (k.grammar.parse text).lexerErrors
      (k.grammar.parse text).parserErrors with
  | some e' =>
    simp only [Kind.parse, ParseResult.toExcept, hd] at h
    exact congrArg some (Except.error.inj h)
  | none =>
    have hn : (k.grammar.parse text).lexerErrors ++ (k.grammar.parse text).parserErrors = [] := by
      by_contra hne
      rw [ParseError.ofDiagnostics?, dif_pos hne] at hd
      cases hd
    obtain ⟨d, hok⟩ := Kind.parse_of_no_parserErrors (List.append_eq_nil_iff.1 hn).2
    rw [hok] at h
    cases h

/-- A grammar that finds no fault accepts the text: a lexer error is a fault of the grammar too, and
without a tree there is just the fault of the header. So a failure always has something to report,
and what completes a tree never sees a text with a lexer error. -/
theorem Kind.parserErrors_eq_nil_iff (k : Kind) (text : String) :
    ((k.grammar.parse text).parserErrors = [] ↔ ∃ d, k.parse text = .ok d) ∧
    ((k.grammar.parse text).lexerErrors ≠ [] → (k.grammar.parse text).parserErrors ≠ []) ∧
    ((k.grammar.parse text).value = none → (k.grammar.parse text).parserErrors.length = 1) ∧
    (∀ e, k.parse text = .error e → e ≠ ParseResult.noTree ∧
      ParseError.ofDiagnostics? (k.grammar.parse text).lexerErrors
        (k.grammar.parse text).parserErrors = some e) ∧
    ((k.grammar.parse text).lexerErrors ≠ [] → ∀ complete : Diagram → Diagram,
      Grammar.parse { k.grammar with complete } text = k.grammar.parse text) := by
  have hlex : (k.grammar.parse text).lexerErrors ≠ [] → (k.grammar.parse text).parserErrors ≠ [] := by
    intro hl hp
    obtain ⟨d, hok⟩ := parse_of_no_parserErrors hp
    exact hl (ParseResult.toExcept_eq_ok_iff.1 hok).1
  refine ⟨⟨parse_of_no_parserErrors, ?_⟩, hlex, ?_, ?_, ?_⟩
  · rintro ⟨d, hok⟩
    exact (ParseResult.toExcept_eq_ok_iff.1 hok).2.2
  · intro hv
    rw [Grammar.parse, List.length_map]
    exact Grammar.length_faults_of_no_tree hv
  · intro e he
    have hd := eq_of_parse_eq_error he
    refine ⟨?_, hd⟩
    rintro rfl
    exact k.grammar.parserErrors_ne_noTree text (ParseError.ofDiagnostics?_eq_some hd).2.symm
  · intro hl complete
    exact Grammar.parse_complete complete (hlex hl)

theorem Kind.parserErrors_eq_nil_iff_brokenPie :
    (Kind.pie.grammar.parse brokenPie).lexerErrors ≠ [] ∧
    (Kind.pie.grammar.parse brokenPie).parserErrors ≠ [] ∧
    (Kind.info.grammar.parse brokenPie).value = none ∧
    (Kind.info.grammar.parse brokenPie).parserErrors.length = 1 := by
  have he : (Kind.pie.grammar.parse brokenPie).lexerErrors ≠ [] := by decide +kernel
  have hv : (Kind.info.grammar.parse brokenPie).value = none :=
    Option.isNone_iff_eq_none.1 (by decide +kernel)
  exact ⟨he, (parserErrors_eq_nil_iff .pie brokenPie).2.1 he, hv,
    (parserErrors_eq_nil_iff .info brokenPie).2.2.1 hv⟩

end DiagramText
