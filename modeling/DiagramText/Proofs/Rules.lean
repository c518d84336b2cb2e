import DiagramText.Grammar.OfKind

namespace DiagramText

open Text (byteSize)

namespace Pattern

theorem isBlank_of_isSpace {c : Char} (h : isSpace c = true) : Text.isBlank c = true := by
  simp only [isSpace, Bool.or_eq_true, decide_eq_true_eq] at h
  rcases h with rfl | rfl <;> decide

theorem literal_eq_some_iff {mark cs taken rest : List Char} :
    literal mark cs = some (taken, rest) ↔ taken = mark ∧ cs = mark ++ rest := by
  simp only [literal, Option.map_eq_some_iff, Prod.mk.injEq, Text.after?_eq_some_iff]
  constructor
  · rintro ⟨r, rfl, rfl, rfl⟩
    exact ⟨rfl, rfl⟩
  · rintro ⟨rfl, rfl⟩
    exact ⟨rest, rfl, rfl, rfl⟩

theorem seq_eq_some_iff {p q : Pattern} {cs taken rest : List Char} :
    p.seq q cs = some (taken, rest) ↔
      ∃ a mid b, p cs = some (a, mid) ∧ q mid = some (b, rest) ∧ taken = a ++ b := by
  simp only [seq, Option.bind_eq_some_iff, Option.map_eq_some_iff, Prod.exists, Prod.mk.injEq]
  constructor
  · rintro ⟨a, mid, ha, b, r, hb, rfl, rfl⟩
    exact ⟨a, mid, b, ha, hb, rfl⟩
  · rintro ⟨a, mid, b, ha, hb, rfl⟩
    exact ⟨a, mid, ha, b, rest, hb, rfl, rfl⟩

theorem through_eq_some_iff {mark cs taken rest : List Char} :
    through mark cs = some (taken, rest) ↔
      ∃ before, Text.cut? mark cs = some (before, rest) ∧ taken = before ++ mark := by
  simp only [through, Option.map_eq_some_iff, Prod.exists, Prod.mk.injEq]
  constructor
  · rintro ⟨before, r, hb, rfl, rfl⟩
    exact ⟨before, hb, rfl⟩
  · rintro ⟨before, hb, rfl⟩
    exact ⟨before, rest, hb, rfl, rfl⟩

theorem many_eq_some_iff {p : Char → Bool} {cs taken rest : List Char} :
    many p cs = some (taken, rest) ↔ taken = cs.takeWhile p ∧ rest = cs.dropWhile p := by
  simp [many, eq_comm]

theorem splits_lineComment : Splits lineComment :=
  (splits_many _).seq ((splits_literal _).seq (splits_many _))

theorem splits_blockComment : Splits blockComment :=
  (splits_many _).seq ((splits_literal _).seq (splits_through _))

theorem splits_directive : Splits directive :=
  (splits_literal _).seq (splits_through _)

theorem splits_whitespace : Splits whitespace :=
  splits_blanks.nonempty

theorem splits_lineEnd : Splits lineEnd :=
  (splits_literal _).alt (splits_literal _)

theorem splits_keyword (word : List Char) : Splits (keyword word) :=
  (splits_literal word).whenRest _

theorem splits_digits : Splits digits :=
  (splits_many1 _).seq ((splits_literal _).seq (splits_many1 _)).optional

theorem splits_quoted (quote : Char) : Splits (quoted quote) :=
  (splits_literal _).seq ((splits_many _).seq (splits_literal _))

theorem splits_number : Splits number :=
  splits_digits.whenRest _

theorem splits_string : Splits string :=
  (splits_quoted _).alt (splits_quoted _)

theorem splits_title : Splits title :=
  ((splits_literal _).whenRest _).seq (splits_freeText _)

theorem splits_labelled (word : List Char) : Splits (labelled word) :=
  (splits_literal _).seq ((splits_many _).seq ((splits_literal _).seq (splits_freeText _)))

theorem splits_accDescr : Splits accDescr :=
  (splits_labelled _).alt
    ((splits_literal _).seq ((splits_many _).seq ((splits_literal _).seq (splits_through _))))

theorem splits_quotedRest : Splits quotedRest := by
  intro cs
  fun_induction quotedRest cs with
  | case1 cs ih | case3 c cs _ _ ih =>
    intro taken rest h
    obtain ⟨⟨t, r⟩, ht, he⟩ := Option.map_eq_some_iff.1 h
    obtain ⟨rfl, rfl⟩ := Prod.mk.inj he
    simp [ih t r ht]
  | case2 cs =>
    intro taken rest h
    obtain ⟨rfl, rfl⟩ := Prod.mk.inj (Option.some.inj h)
    rfl
  | case4 => intro taken rest h; cases h

theorem quotedRest_ne_nil {cs : List Char} {p : List Char × List Char}
    (h : quotedRest cs = some p) : p.1 ≠ [] := by
  unfold quotedRest at h
  split at h
  · obtain ⟨q, -, rfl⟩ := Option.map_eq_some_iff.1 h
    simp
  · obtain rfl := Option.some.inj h
    simp
  · obtain ⟨q, -, rfl⟩ := Option.map_eq_some_iff.1 h
    simp
  · cases h

theorem splits_quotedField : Splits quotedField := fun cs taken rest h ↦
  ((splits_literal _).seq splits_quotedRest) cs taken rest (Option.filter_eq_some_iff.1 h).1

theorem splits_sankeyNode : Splits sankeyNode := by
  intro cs taken rest h
  unfold sankeyNode at h
  split at h
  · exact splits_quotedField cs taken rest h
  · exact (splits_freeText _).nonempty cs taken rest h

theorem splits_sankeyValue : Splits sankeyValue :=
  (splits_digits.alt ((splits_literal _).seq (splits_digits.seq (splits_literal _)))).whenRest _

theorem splits_sectionTitle : Splits sectionTitle :=
  (splits_literal _).seq ((splits_many1 _).seq (splits_freeText _).nonempty)

theorem splits_periodEvent : Splits periodEvent :=
  (splits_literal _).seq ((splits_many _).seq (splits_freeText _).nonempty)

theorem splits_enclosed (opening : List Char) (inner : Char → Bool) (closing : List Char) :
    Splits (enclosed opening inner closing) :=
  (splits_literal _).seq ((splits_many1 _).seq (splits_literal _))

theorem splits_identifier : Splits identifier :=
  (splits_one _).seq (splits_many _)

end Pattern

theorem Rule.match?_ofPattern (kind : Token.Kind) {p : Pattern} (hp : p.Splits) (c : Cursor) :
    (Rule.ofPattern kind p).match? c =
      (p.nonempty c.after).map fun (text, rest) ↦ ⟨kind, text, rest⟩ := by
  simp only [match?, ofPattern, Pattern.matcher, Pattern.nonempty]
  cases h : p c.after with
  | none => rfl
  | some taken =>
    obtain ⟨text, rest⟩ := taken
    cases text with
    | nil => rfl
    | cons a text =>
      have hs : Text.splitBytes? (byteSize (a :: text)) c.after = some (a :: text, rest) :=
        Text.splitBytes?_eq_some_iff.2 ⟨hp _ _ _ h, rfl⟩
      have hpos : ¬c.offset + byteSize (a :: text) ≤ c.offset := by
        have := Text.byteSize_pos (List.cons_ne_nil a text)
        omega
      simp only [Option.bind_some, List.isEmpty_cons, Bool.false_eq_true, if_false, hpos,
        Nat.add_sub_cancel_left, hs]
      rfl

/-- A kind of token and the pattern it is told by. -/
structure Shape where
  kind : Token.Kind
  pattern : Pattern

namespace Shape

def keyword (k : Keyword) : Shape :=
  ⟨.keyword k, Pattern.keyword k.text.toList⟩

def symbol (s : Symbol) : Shape :=
  ⟨.symbol s, Pattern.literal s.text.toList⟩

def rule (s : Shape) : Rule :=
  .ofPattern s.kind s.pattern

def match? (s : Shape) (cs : List Char) : Option Match :=
  (s.pattern.nonempty cs).map fun (text, rest) ↦ ⟨s.kind, text, rest⟩

def first? (ss : List Shape) (cs : List Char) : Option Match :=
  ss.findSome? fun s ↦ s.match? cs

def directive : Shape :=
  ⟨.directive, Pattern.directive⟩

def base : List Shape :=
  [⟨.blockComment, Pattern.blockComment⟩, ⟨.lineComment, Pattern.lineComment⟩,
    ⟨.whitespace, Pattern.whitespace⟩, ⟨.newline, Pattern.lineEnd⟩]

def annotations : List Shape :=
  [⟨.accDescr, Pattern.accDescr⟩, ⟨.accTitle, Pattern.accTitle⟩, ⟨.title, Pattern.title⟩]

end Shape

/-- The shapes of the tokens of a kind of diagram, in the order in which they are tried. -/
def Kind.shapes : Kind → List Shape
  | .info => [.keyword .info, .keyword .showInfo] ++ Shape.annotations
  | .pie => [.keyword .pie, .keyword .showData] ++ Shape.annotations ++
      [⟨.number, Pattern.number⟩, ⟨.string, Pattern.string⟩, .symbol .colon]
  | .packet => [.keyword .packetBeta, .keyword .packet] ++ Shape.annotations ++
      [⟨.number, Pattern.number⟩, ⟨.string, Pattern.string⟩, .symbol .colon, .symbol .minus,
        .symbol .plus]
  | .sankey => [.keyword .sankeyBeta, .keyword .sankey] ++ Shape.annotations ++
      [⟨.sankeyValue, Pattern.sankeyValue⟩, ⟨.sankeyNode, Pattern.sankeyNode⟩, .symbol .comma]
  | .timeline => [.keyword .timeline] ++ Shape.annotations ++
      [⟨.sectionTitle, Pattern.sectionTitle⟩, .keyword .section,
        ⟨.periodEvent, Pattern.periodEvent⟩, ⟨.periodTitle, Pattern.periodTitle⟩]
  | .architecture => [.keyword .architectureBeta, .keyword .architecture, .keyword .group,
      .keyword .service, .keyword .junction, .keyword .in] ++ Shape.annotations ++
      [⟨.archTextIcon, Pattern.archTextIcon⟩, ⟨.archIcon, Pattern.archIcon⟩,
        ⟨.archTitle, Pattern.archTitle⟩, ⟨.identifier, Pattern.identifier⟩, .symbol .groupModifier,
        .symbol .doubleMinus, .symbol .minus, .symbol .colon, .symbol .leftAngle,
        .symbol .rightAngle]

/-- The pattern that tokens of a kind are told by, in all grammars the same. -/
def Token.Kind.pattern? : Token.Kind → Option Pattern
  | whitespace => some Pattern.whitespace
  | lineComment => some Pattern.lineComment
  | blockComment => some Pattern.blockComment
  | directive => some Pattern.directive
  | newline => some Pattern.lineEnd
  | keyword k => some (Pattern.keyword k.text.toList)
  | symbol s => some (Pattern.literal s.text.toList)
  | identifier => some Pattern.identifier
  | number => some Pattern.number
  | string => some Pattern.string
  | title => some Pattern.title
  | accTitle => some Pattern.accTitle
  | accDescr => some Pattern.accDescr
  | sankeyNode => some Pattern.sankeyNode
  | sankeyValue => some Pattern.sankeyValue
  | sectionTitle => some Pattern.sectionTitle
  | periodTitle => some Pattern.periodTitle
  | periodEvent => some Pattern.periodEvent
  | archIcon => some Pattern.archIcon
  | archTextIcon => some Pattern.archTextIcon
  | archTitle => some Pattern.archTitle
  | invalid => none

theorem Kind.rules_lexicon (k : Kind) :
    k.grammar.lexicon.rules = Lexicon.base.rules ++ k.shapes.map Shape.rule := by
  have hp : Lexicon.longestFirst [.colon, .minus, .plus] = [.colon, .minus, .plus] :=
    List.mergeSort_of_pairwise (by decide)
  have ha : Lexicon.longestFirst
      [.groupModifier, .doubleMinus, .minus, .colon, .leftAngle, .rightAngle] =
      [.groupModifier, .doubleMinus, .minus, .colon, .leftAngle, .rightAngle] :=
    List.mergeSort_of_pairwise (by decide)
  have hs (s : Symbol) : Lexicon.longestFirst [s] = [s] := List.mergeSort_singleton s
  cases k with
  | info | timeline => rfl
  | pie =>
    simp only [Kind.grammar, Grammar.Pie.grammar, Grammar.Pie.lexicon, Lexicon.symbols, hs]
    rfl
  | packet =>
    simp only [Kind.grammar, Grammar.Packet.grammar, Grammar.Packet.lexicon, Lexicon.symbols, hp]
    rfl
  | sankey =>
    simp only [Kind.grammar, Grammar.Sankey.grammar, Grammar.Sankey.lexicon, Lexicon.symbols, hs]
    rfl
  | architecture =>
    simp only [Kind.grammar, Grammar.Architecture.grammar, Grammar.Architecture.lexicon,
      Lexicon.symbols, ha]
    rfl

theorem Shape.splits_base : ∀ s ∈ Shape.base, s.pattern.Splits := by
  simp only [Shape.base, List.forall_mem_cons]
  exact ⟨Pattern.splits_blockComment, Pattern.splits_lineComment, Pattern.splits_whitespace,
    Pattern.splits_lineEnd, by simp⟩

theorem Kind.splits_shapes (k : Kind) : ∀ s ∈ k.shapes, s.pattern.Splits := by
  have hk (w : Keyword) : (Shape.keyword w).pattern.Splits := Pattern.splits_keyword _
  have hs (s : Symbol) : (Shape.symbol s).pattern.Splits := Pattern.splits_literal _
  have ha : ∀ s ∈ Shape.annotations, s.pattern.Splits := by
    simp only [Shape.annotations, List.forall_mem_cons]
    exact ⟨Pattern.splits_accDescr, Pattern.splits_labelled _, Pattern.splits_title, by simp⟩
  cases k with
  | info =>
    simp only [shapes, List.forall_mem_append, List.forall_mem_cons]
    exact ⟨⟨hk _, hk _, by simp⟩, ha⟩
  | pie =>
    simp only [shapes, List.forall_mem_append, List.forall_mem_cons]
    exact ⟨⟨⟨hk _, hk _, by simp⟩, ha⟩, Pattern.splits_number, Pattern.splits_string, hs _,
      by simp⟩
  | packet =>
    simp only [shapes, List.forall_mem_append, List.forall_mem_cons]
    exact ⟨⟨⟨hk _, hk _, by simp⟩, ha⟩, Pattern.splits_number, Pattern.splits_string, hs _,
      hs _, hs _, by simp⟩
  | sankey =>
    simp only [shapes, List.forall_mem_append, List.forall_mem_cons]
    exact ⟨⟨⟨hk _, hk _, by simp⟩, ha⟩, Pattern.splits_sankeyValue, Pattern.splits_sankeyNode,
      hs _, by simp⟩
  | timeline =>
    simp only [shapes, List.forall_mem_append, List.forall_mem_cons]
    exact ⟨⟨⟨hk _, by simp⟩, ha⟩, Pattern.splits_sectionTitle, hk _, Pattern.splits_periodEvent,
      (Pattern.splits_freeText _).nonempty, by simp⟩
  | architecture =>
    simp only [shapes, List.forall_mem_append, List.forall_mem_cons]
    exact ⟨⟨⟨hk _, hk _, hk _, hk _, hk _, hk _, by simp⟩, ha⟩, Pattern.splits_enclosed _ _ _,
      Pattern.splits_enclosed _ _ _, Pattern.splits_enclosed _ _ _, Pattern.splits_identifier,
      hs _, hs _, hs _, hs _, hs _, hs _, by simp⟩

theorem findSome?_rules {ss : List Shape} (h : ∀ s ∈ ss, s.pattern.Splits) (c : Cursor) :
    (ss.map Shape.rule).findSome? (fun r ↦ r.match? c) = Shape.first? ss c.after := by
  induction ss with
  | nil => rfl
  | cons s ss ih =>
    obtain ⟨hs, hss⟩ := List.forall_mem_cons.1 h
    have hm : s.rule.match? c = s.match? c.after := Rule.match?_ofPattern s.kind hs c
    rw [List.map_cons, List.findSome?_cons, ih hss, hm]
    rfl

def directiveAt? (c : Cursor) : Option Match :=
  if c.before.all Text.isBlank then Shape.directive.match? c.after else none

theorem Rule.match?_directive (c : Cursor) :
    (⟨.directive, Matcher.directive⟩ : Rule).match? c = directiveAt? c := by
  rw [directiveAt?]
  split
  · rename_i h
    refine Eq.trans ?_ (Rule.match?_ofPattern .directive Pattern.splits_directive c)
    simp only [match?, Matcher.directive, h, if_true]
    rfl
  · rename_i h
    simp [match?, Matcher.directive, h]

theorem Lexicon.match?_base (c : Cursor) :
    base.match? c = (directiveAt? c).or (Shape.first? Shape.base c.after) := by
  have h := findSome?_rules Shape.splits_base c
  simp only [match?, base, List.findSome?_cons, Rule.match?_directive]
  rw [← h]
  cases directiveAt? c <;> rfl

theorem Kind.match?_lexicon (k : Kind) (c : Cursor) :
    k.grammar.lexicon.match? c = (Lexicon.base.match? c).or (Shape.first? k.shapes c.after) := by
  rw [Lexicon.match?, k.rules_lexicon, List.findSome?_append, findSome?_rules k.splits_shapes]
  rfl

/-- The shapes tried where only blanks stand before the cursor, and elsewhere. -/
def Kind.tried (k : Kind) (atStart : Bool) : List Shape :=
  if atStart then Shape.directive :: (Shape.base ++ k.shapes) else Shape.base ++ k.shapes

/-- Beyond the blanks at the start, what matches is told by what follows the cursor alone. -/
theorem Kind.match?_eq_first? (k : Kind) (c : Cursor) :
    k.grammar.lexicon.match? c =
      Shape.first? (k.tried (c.before.all Text.isBlank)) c.after := by
  rw [k.match?_lexicon, Lexicon.match?_base, Option.or_assoc]
  have happ : (Shape.first? Shape.base c.after).or (Shape.first? k.shapes c.after) =
      Shape.first? (Shape.base ++ k.shapes) c.after := by
    simp only [Shape.first?, List.findSome?_append]
  rw [happ, tried, directiveAt?]
  split
  · rw [Shape.first?, Shape.first?, List.findSome?_cons]
    cases Shape.directive.match? c.after <;> rfl
  · rfl

/-- Some character before the cursor is not blank, so that no directive may follow. -/
def Cursor.Begun (c : Cursor) : Prop :=
  c.before.all Text.isBlank = false

theorem Cursor.Begun.past {c : Cursor} (h : c.Begun) (taken rest : List Char) :
    (c.past taken rest).Begun := by
  rw [Begun, Cursor.past, List.all_append, show c.before.all Text.isBlank = false from h,
    Bool.and_false]

theorem Kind.match?_eq_of_begun {k : Kind} {c : Cursor} (hc : c.Begun) :
    k.grammar.lexicon.match? c = Shape.first? (Shape.base ++ k.shapes) c.after := by
  rw [k.match?_eq_first?, show c.before.all Text.isBlank = false from hc]
  rfl

theorem Shape.match?_eq_some_iff {s : Shape} {cs : List Char} {m : Match} :
    s.match? cs = some m ↔
      s.kind = m.kind ∧ s.pattern cs = some (m.text, m.rest) ∧ m.text ≠ [] := by
  obtain ⟨kind, text, rest⟩ := m
  simp only [match?, Option.map_eq_some_iff, Prod.exists, Pattern.nonempty,
    Option.filter_eq_some_iff, Match.mk.injEq]
  constructor
  · rintro ⟨t, r, ⟨h, hn⟩, rfl, rfl, rfl⟩
    exact ⟨rfl, h, by simpa using hn⟩
  · rintro ⟨rfl, h, hn⟩
    exact ⟨text, rest, ⟨h, by simpa using hn⟩, rfl, rfl, rfl⟩

theorem Kind.pattern?_of_mem_tried {k : Kind} {atStart : Bool} :
    ∀ s ∈ k.tried atStart, s.kind.pattern? = some s.pattern := by
  cases k <;> cases atStart <;>
    simp [tried, shapes, Shape.directive, Shape.base, Shape.annotations, Shape.keyword,
      Shape.symbol, Token.Kind.pattern?]

theorem Kind.eq_of_match? {k : Kind} {c : Cursor} {m : Match} {p : Pattern}
    (h : k.grammar.lexicon.match? c = some m) (hp : m.kind.pattern? = some p) :
    p c.after = some (m.text, m.rest) := by
  rw [k.match?_eq_first?] at h
  obtain ⟨s, hs, hm⟩ := List.exists_of_findSome?_eq_some h
  obtain ⟨hkind, htaken, -⟩ := Shape.match?_eq_some_iff.1 hm
  have hpattern := pattern?_of_mem_tried s hs
  rw [hkind, hp, Option.some.injEq] at hpattern
  rwa [hpattern]

theorem Shape.eq_nil_of_match?_eq_none {s : Shape} {cs taken rest : List Char}
    (h : s.match? cs = none) (hp : s.pattern cs = some (taken, rest)) : taken = [] := by
  cases taken with
  | nil => rfl
  | cons c taken =>
    have := (@match?_eq_some_iff s cs ⟨s.kind, c :: taken, rest⟩).2 ⟨rfl, hp, by simp⟩
    rw [h] at this
    cases this

namespace Shape

variable {s : Shape} {ss : List Shape} {cs : List Char}

theorem match?_eq_none_iff : s.match? cs = none ↔ s.pattern.nonempty cs = none :=
  Option.map_eq_none_iff

theorem match?_of_none (h : s.pattern cs = none) : s.match? cs = none := by
  rw [match?_eq_none_iff, Pattern.nonempty, h]
  rfl

theorem first?_cons_of_none (h : s.match? cs = none) : first? (s :: ss) cs = first? ss cs := by
  rw [first?, first?, List.findSome?_cons, h]

theorem first?_cons_of_some {m : Match} (h : s.match? cs = some m) :
    first? (s :: ss) cs = some m := by
  rw [first?, List.findSome?_cons, h]

theorem first?_append_of_none {ss' : List Shape} (h : first? ss cs = none) :
    first? (ss ++ ss') cs = first? ss' cs := by
  rw [first?] at h
  rw [first?, first?, List.findSome?_append, h, Option.none_or]

end Shape

end DiagramText
