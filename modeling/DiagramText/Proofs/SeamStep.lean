import DiagramText.Proofs.SeamShapes

namespace DiagramText

open Text (after? isBlank isBreak startsWith)
open Pattern (isSpace)

namespace Seam

variable {S : Seam} {sh : Shape} {ss : List Shape}

/-- What a line comment at the seam leaves of the new text. -/
def afterLine (S : Seam) : List Char :=
  S.whole.dropWhile fun c ↦ !isBreak c

/-- The matches follow each other, or hidden ones end at the seam and beyond what was put in. -/
def Onward (S : Seam) (m m' : Match) : Prop :=
  (m'.kind = m.kind ∧ S.Follows m.kind (m.text, m.rest) (m'.text, m'.rest)) ∨
    (m.kind.isHidden = true ∧ m'.kind.isHidden = true ∧ m.rest = S.old ∧ m'.rest = S.afterLine)

def KeepsFirst (S : Seam) (ss : List Shape) : Prop :=
  ∀ cs m rest, cs ≠ [] → S.Clear cs → Shape.first? ss (cs ++ S.old) = some m →
    m.rest = rest ++ S.old → ∃ m', Shape.first? ss (cs ++ S.whole) = some m' ∧ S.Onward m m'

theorem keepsFirst_nil : S.KeepsFirst [] := by
  intro cs m rest _ _ h
  cases h

theorem KeepsFirst.cons_of (hk : S.Keeps sh.kind sh.pattern)
    (hm : ∀ cs, cs ≠ [] → S.Clear cs → sh.match? (cs ++ S.old) = none →
      Shape.first? ss (cs ++ S.old) ≠ none → sh.match? (cs ++ S.whole) = none)
    (hss : S.KeepsFirst ss) : S.KeepsFirst (sh :: ss) := by
  intro cs m rest hcs hc h hr
  rw [Shape.first?, List.findSome?_cons] at h
  rw [Shape.first?, List.findSome?_cons]
  cases hsh : sh.match? (cs ++ S.old) with
  | some m' =>
    rw [hsh] at h
    obtain rfl := Option.some.inj h
    obtain ⟨hkind, hp, hn⟩ := Shape.match?_eq_some_iff.1 hsh
    rw [hr] at hp
    obtain ⟨⟨u, ys⟩, hy, hf⟩ := hk cs m'.text rest hcs hc hp
    have hm' : sh.match? (cs ++ S.whole) = some ⟨sh.kind, u, ys⟩ :=
      Shape.match?_eq_some_iff.2 ⟨rfl, hy, hf.ne_nil hn⟩
    rw [hm']
    refine ⟨_, rfl, .inl ⟨hkind, ?_⟩⟩
    rw [← hkind, hr]
    exact hf
  | none =>
    rw [hsh] at h
    have hne : Shape.first? ss (cs ++ S.old) ≠ none := by
      intro he
      exact absurd (he.symm.trans h) (by simp)
    rw [hm cs hcs hc hsh hne]
    exact hss cs m rest hcs hc h hr

theorem KeepsFirst.cons (hs : sh.pattern.Splits) (hk : S.Keeps sh.kind sh.pattern)
    (hm : S.Misses sh.pattern) (hss : S.KeepsFirst ss) : S.KeepsFirst (sh :: ss) :=
  KeepsFirst.cons_of hk (fun cs hcs hc h _ ↦
    Shape.match?_eq_none_iff.2 (hm.nonempty hs hk cs hcs hc (Shape.match?_eq_none_iff.1 h))) hss

/-- A shape that the new text may close, before others that never match where it opens. -/
theorem KeepsFirst.cons_mark {c : Char} (hk : S.Keeps sh.kind sh.pattern)
    (hm : ∀ cs, cs ≠ [] → S.Clear cs → sh.pattern (cs ++ S.old) = none →
      sh.pattern (cs ++ S.whole) = none ∨ cs.head? = some c)
    (hn : ∀ cs rest, sh.pattern cs ≠ some ([], rest))
    (ho : ∀ s ∈ ss, ∀ cs, cs.head? = some c → s.pattern cs = none)
    (hss : S.KeepsFirst ss) : S.KeepsFirst (sh :: ss) := by
  refine KeepsFirst.cons_of hk (fun cs hcs hc h hf ↦ ?_) hss
  have hnone : sh.pattern (cs ++ S.old) = none := by
    rw [Option.eq_none_iff_forall_ne_some]
    rintro ⟨t, r⟩ hp
    have ht := Shape.eq_nil_of_match?_eq_none h hp
    exact hn _ r (ht ▸ hp)
  rcases hm cs hcs hc hnone with hw | hhead
  · exact Shape.match?_of_none hw
  · refine absurd ?_ hf
    rw [Shape.first?, List.findSome?_eq_none_iff]
    intro s hs
    have hhead : (cs ++ S.old).head? = some c := by
      obtain ⟨d, ds, rfl⟩ := List.exists_cons_of_ne_nil hcs
      exact hhead
    exact Shape.match?_of_none (ho s hs _ hhead)

theorem KeepsFirst.cons_ahead (hs : sh.pattern.Splits)
    (hp : sh.pattern.Carries S.Ahead S.Ahead) (hss : S.KeepsFirst ss) : S.KeepsFirst (sh :: ss) :=
  hss.cons hs
    (keeps_of_finds_ahead hs hp.finds.before) (misses_of_loses hp.loses.before)

theorem KeepsFirst.cons_keyword {w : Keyword} (hss : S.KeepsFirst ss) :
    S.KeepsFirst (.keyword w :: ss) :=
  hss.cons_ahead (Pattern.splits_keyword _) (Pattern.carries_keyword w)

theorem KeepsFirst.cons_symbol {s : Symbol} (hss : S.KeepsFirst ss) :
    S.KeepsFirst (.symbol s :: ss) :=
  hss.cons_ahead (Pattern.splits_literal _) (Pattern.carries_symbol s)

theorem KeepsFirst.cons_text (hs : sh.pattern.Splits) (hp : sh.pattern.Carries S.Before S.Meets)
    (hk : ∀ cs t rest, sh.pattern cs = some (t, rest) → Token.Pads sh.kind t)
    (hss : S.KeepsFirst ss) : S.KeepsFirst (sh :: ss) :=
  hss.cons hs (keeps_of_finds hs hp.finds hk) (misses_of_loses hp.loses)

theorem KeepsFirst.cons_annotations (hss : S.KeepsFirst ss) :
    S.KeepsFirst (Shape.annotations ++ ss) := by
  have htitle : Pattern.Carries S.Before S.Meets Pattern.title := Pattern.carries_title.before
  have hacc : Pattern.Carries S.Before S.Meets Pattern.accTitle :=
    (Pattern.carries_labelled (by decide) (by decide)).before
  refine KeepsFirst.cons Pattern.splits_accDescr Pattern.keeps_accDescr Pattern.misses_accDescr ?_
  refine KeepsFirst.cons_text (Pattern.splits_labelled _) hacc (fun _ _ _ _ ↦ .accTitle) ?_
  exact hss.cons_text Pattern.splits_title htitle fun _ _ _ ↦ Pattern.pads_title

theorem KeepsFirst.cons_number (hss : S.KeepsFirst ss) :
    S.KeepsFirst (⟨.number, Pattern.number⟩ :: ss) :=
  hss.cons_ahead Pattern.splits_number Pattern.carries_number

theorem KeepsFirst.cons_string
    (ho : ∀ s ∈ ss, ∀ cs, cs.head? = some '\'' → s.pattern cs = none) (hss : S.KeepsFirst ss) :
    S.KeepsFirst (⟨.string, Pattern.string⟩ :: ss) := by
  have hdouble : S.Misses (Pattern.quoted '"') := misses_of_loses Pattern.loses_quoted.before
  have hkeeps {q : Char} (hq : isBreak q = false) (hs : q ≠ ' ') :
      S.Keeps .string (Pattern.quoted q) :=
    keeps_of_finds_ahead (Pattern.splits_quoted q) (Pattern.finds_quoted hq hs).before
  refine hss.cons_mark ((hkeeps (by decide) (by decide)).alt hdouble (hkeeps (by decide) (by decide)))
    ?_ ?_ ho
  · intro cs hcs hc h
    change (Pattern.quoted '"').alt (Pattern.quoted '\'') (cs ++ S.old) = none at h
    change (Pattern.quoted '"').alt (Pattern.quoted '\'') (cs ++ S.whole) = none ∨ _
    cases hq : Pattern.quoted '"' (cs ++ S.old) with
    | some m => simp [Pattern.alt, hq] at h
    | none =>
      by_cases hs : Pattern.quoted '\'' (cs ++ S.whole) = none
      · exact .inl (by simp [Pattern.alt, hdouble cs hcs hc hq, hs])
      · obtain ⟨d, ds, rfl⟩ := List.exists_cons_of_ne_nil hcs
        have hhead : (d :: ds ++ S.whole).head? = some '\'' := Pattern.head?_of_literal_seq hs
        exact .inr hhead
  · intro cs rest h
    have hne {q : Char} : Pattern.quoted q cs ≠ some ([], rest) := by
      intro h
      obtain ⟨_, _, _, hl, -, ht⟩ := Pattern.seq_eq_some_iff.1 h
      obtain ⟨rfl, -⟩ := Pattern.literal_eq_some_iff.1 hl
      cases ht
    change (Pattern.quoted '"').alt (Pattern.quoted '\'') cs = _ at h
    unfold Pattern.alt at h
    split at h
    · rename_i r hr
      obtain rfl := Option.some.inj h
      exact hne hr
    · exact hne h

theorem literal_of_head {mark cs : List Char} {c d : Char} (hd : mark.head? = some d) (hcd : c ≠ d)
    (hc : cs.head? = some c) : Pattern.literal mark cs = none := by
  cases hl : Pattern.literal mark cs with
  | none => rfl
  | some m =>
    obtain ⟨-, he⟩ := Pattern.literal_eq_some_iff.1 (show _ = some (m.1, m.2) from hl)
    obtain ⟨rest, hm⟩ := List.head?_eq_some_iff.1 hd
    rw [he, hm] at hc
    exact absurd (Option.some.inj hc).symm hcd

theorem symbol_of_head {s : Symbol} {c : Char} (hc : s.text.toList.head? ≠ some c) :
    ∀ cs, cs.head? = some c → (Shape.symbol s).pattern cs = none := by
  intro cs hcs
  cases hd : s.text.toList.head? with
  | none => cases s <;> simp [Symbol.text] at hd
  | some d => exact literal_of_head hd (fun h ↦ hc (hd.trans (congrArg some h.symm))) hcs

theorem keepsFirst_info : S.KeepsFirst Kind.info.shapes :=
  keepsFirst_nil.cons_annotations.cons_keyword.cons_keyword

theorem keepsFirst_pie : S.KeepsFirst Kind.pie.shapes := by
  have hstring : S.KeepsFirst [⟨.string, Pattern.string⟩, .symbol .colon] := by
    refine KeepsFirst.cons_string ?_ keepsFirst_nil.cons_symbol
    simp only [List.forall_mem_cons]
    exact ⟨symbol_of_head (by decide), by simp⟩
  exact hstring.cons_number.cons_annotations.cons_keyword.cons_keyword

theorem keepsFirst_packet : S.KeepsFirst Kind.packet.shapes := by
  have hstring : S.KeepsFirst [⟨.string, Pattern.string⟩, .symbol .colon, .symbol .minus,
      .symbol .plus] := by
    refine KeepsFirst.cons_string ?_ keepsFirst_nil.cons_symbol.cons_symbol.cons_symbol
    simp only [List.forall_mem_cons]
    exact ⟨symbol_of_head (by decide), symbol_of_head (by decide), symbol_of_head (by decide),
      by simp⟩
  exact hstring.cons_number.cons_annotations.cons_keyword.cons_keyword

theorem keepsFirst_sankey : S.KeepsFirst Kind.sankey.shapes := by
  have hnode : S.KeepsFirst [⟨.sankeyNode, Pattern.sankeyNode⟩, .symbol .comma] :=
    keepsFirst_nil.cons_symbol.cons Pattern.splits_sankeyNode Pattern.keeps_sankeyNode
      Pattern.misses_sankeyNode
  have hvalue : S.KeepsFirst [⟨.sankeyValue, Pattern.sankeyValue⟩,
      ⟨.sankeyNode, Pattern.sankeyNode⟩, .symbol .comma] :=
    hnode.cons_ahead Pattern.splits_sankeyValue Pattern.carries_sankeyValue
  exact hvalue.cons_annotations.cons_keyword.cons_keyword

theorem keepsFirst_timeline : S.KeepsFirst Kind.timeline.shapes := by
  have htitle : S.KeepsFirst [⟨.periodTitle, Pattern.periodTitle⟩] :=
    keepsFirst_nil.cons_text (Pattern.splits_freeText _).nonempty
      (Pattern.carries_periodTitle.mono (fun _ _ ↦ .inl) fun _ _ ↦ id) fun _ _ _ _ ↦ .periodTitle
  have hevent : S.KeepsFirst [⟨.periodEvent, Pattern.periodEvent⟩,
      ⟨.periodTitle, Pattern.periodTitle⟩] :=
    htitle.cons_text Pattern.splits_periodEvent Pattern.carries_periodEvent.before
      fun _ _ _ _ ↦ .periodEvent
  have hsection : S.KeepsFirst [⟨.sectionTitle, Pattern.sectionTitle⟩, .keyword .section,
      ⟨.periodEvent, Pattern.periodEvent⟩, ⟨.periodTitle, Pattern.periodTitle⟩] :=
    hevent.cons_keyword.cons_text Pattern.splits_sectionTitle Pattern.carries_sectionTitle.before
      fun _ _ _ _ ↦ .sectionTitle
  exact hsection.cons_annotations.cons_keyword

theorem identifier_of_head {c : Char} (hc : (c.isAlpha || c = '_') = false) :
    ∀ cs, cs.head? = some c → Pattern.identifier cs = none := by
  intro cs hcs
  obtain ⟨rest, rfl⟩ := List.head?_eq_some_iff.1 hcs
  simp only [Pattern.identifier, Pattern.seq, Pattern.one, hc]
  rfl

theorem KeepsFirst.cons_archTitle
    (ho : ∀ s ∈ ss, ∀ cs, cs.head? = some '[' → s.pattern cs = none) (hss : S.KeepsFirst ss) :
    S.KeepsFirst (⟨.archTitle, Pattern.archTitle⟩ :: ss) := by
  have hkeeps : S.Keeps .archTitle Pattern.archTitle :=
    keeps_of_finds_ahead (Pattern.splits_enclosed _ _ _) Pattern.finds_archTitle.before
  refine hss.cons_mark hkeeps ?_ ?_ ho
  · intro cs hcs _ _
    by_cases hs : Pattern.archTitle (cs ++ S.whole) = none
    · exact .inl hs
    · have hhead : (cs ++ S.whole).head? = some '[' := Pattern.head?_of_literal_seq hs
      obtain ⟨d, ds, rfl⟩ := List.exists_cons_of_ne_nil hcs
      exact .inr hhead
  · intro cs rest h
    obtain ⟨_, _, _, hl, -, ht⟩ := Pattern.seq_eq_some_iff.1 h
    obtain ⟨rfl, -⟩ := Pattern.literal_eq_some_iff.1 hl
    cases ht

theorem keepsFirst_architecture : S.KeepsFirst Kind.architecture.shapes := by
  have hsymbols : S.KeepsFirst ([⟨.identifier, Pattern.identifier⟩, .symbol .groupModifier,
      .symbol .doubleMinus, .symbol .minus, .symbol .colon, .symbol .leftAngle,
      .symbol .rightAngle]) := by
    refine KeepsFirst.cons_ahead Pattern.splits_identifier Pattern.carries_identifier ?_
    exact keepsFirst_nil.cons_symbol.cons_symbol.cons_symbol.cons_symbol.cons_symbol.cons_symbol
  have htitle := hsymbols.cons_archTitle (by
    simp only [List.forall_mem_cons]
    exact ⟨identifier_of_head (by decide), symbol_of_head (by decide), symbol_of_head (by decide),
      symbol_of_head (by decide), symbol_of_head (by decide), symbol_of_head (by decide),
      symbol_of_head (by decide), by simp⟩)
  have hicon : S.KeepsFirst (⟨.archIcon, Pattern.archIcon⟩ :: _) :=
    htitle.cons_ahead (Pattern.splits_enclosed _ _ _) Pattern.carries_archIcon
  have htext : S.KeepsFirst (⟨.archTextIcon, Pattern.archTextIcon⟩ :: _) :=
    hicon.cons (Pattern.splits_enclosed _ _ _)
      (keeps_of_finds_ahead (Pattern.splits_enclosed _ _ _) Pattern.finds_archTextIcon.before)
      (misses_of_loses Pattern.loses_archTextIcon.before)
  have hwords : S.KeepsFirst (.keyword .service :: .keyword .junction :: .keyword .in :: _) :=
    htext.cons_annotations.cons_keyword.cons_keyword.cons_keyword
  exact hwords.cons_keyword.cons_keyword.cons_keyword

theorem keepsFirst_shapes (k : Kind) : S.KeepsFirst k.shapes := by
  cases k with
  | info => exact keepsFirst_info
  | pie => exact keepsFirst_pie
  | packet => exact keepsFirst_packet
  | sankey => exact keepsFirst_sankey
  | timeline => exact keepsFirst_timeline
  | architecture => exact keepsFirst_architecture

theorem lineComment_eq (cs : List Char) :
    Pattern.lineComment cs =
      (after? Pattern.commentMark (cs.dropWhile isSpace)).map fun rest ↦
        (cs.takeWhile isSpace ++ (Pattern.commentMark ++ rest.takeWhile fun c ↦ !isBreak c),
          rest.dropWhile fun c ↦ !isBreak c) := by
  simp only [Pattern.lineComment, Pattern.seq, Pattern.many, Pattern.literal, Option.bind_some]
  cases after? Pattern.commentMark (cs.dropWhile isSpace) <;> rfl

theorem dropWhile_notBreak_old (S : Seam) : S.old.dropWhile (fun c ↦ !isBreak c) = S.old := by
  obtain ⟨b, bs, ho, hbr⟩ := S.old_head
  rw [ho, List.dropWhile_cons_of_neg (by simp [hbr])]

theorem lineComment_of_blanks {cs : List Char} (hd : (cs.dropWhile isSpace).isEmpty = true) :
    Pattern.lineComment (cs ++ S.old) = none ∧
      (Pattern.lineComment (cs ++ S.whole) = none ∨
        ∃ u, Pattern.lineComment (cs ++ S.whole) = some (u, S.afterLine)) := by
  have hno {b : Char} {rest : List Char} (hb : isBreak b = true) :
      after? Pattern.commentMark (b :: rest) = none := by
    have hne : '%' ≠ b := by
      rintro rfl
      simp [isBreak] at hb
    simp [after?, Pattern.commentMark, hne]
  rw [lineComment_eq, lineComment_eq, List.dropWhile_append, if_pos hd, List.dropWhile_append,
    if_pos hd, Pattern.dropWhile_isSpace_old, Pattern.dropWhile_isSpace_whole]
  constructor
  · obtain ⟨b, bs, ho, hb⟩ := S.old_head
    rw [ho, hno hb]
    rfl
  · rcases S.put_in with ⟨-, b, cs', hn, hb, -⟩ | ⟨hb, cs', hn⟩
    · rw [hn, hno hb]
      exact .inl rfl
    · have ha : after? Pattern.commentMark S.new = some (' ' :: cs') := by
        rw [hn]
        rfl
      have hline : (' ' :: cs').dropWhile (fun c ↦ !isBreak c) = S.afterLine := by
        rw [afterLine, whole, hb, hn]
        rfl
      rw [ha, Option.map_some, hline]
      exact .inr ⟨_, rfl⟩

theorem lineComment_ahead {cs : List Char} (hd : ¬(cs.dropWhile isSpace).isEmpty = true) :
    (Pattern.lineComment (cs ++ S.old) = none ∧ Pattern.lineComment (cs ++ S.whole) = none) ∨
    (∃ t u rest, Pattern.lineComment (cs ++ S.old) = some (t, rest ++ S.old) ∧
      Pattern.lineComment (cs ++ S.whole) = some (u, rest ++ S.whole)) ∨
    ∃ t u, Pattern.lineComment (cs ++ S.old) = some (t, S.old) ∧
      Pattern.lineComment (cs ++ S.whole) = some (u, S.afterLine) := by
  obtain ⟨b, bs, ho, hb⟩ := @not_mem_old_head S Pattern.commentMark (by decide)
  obtain ⟨z, zs, hw, hz⟩ := @not_mem_whole_head S Pattern.commentMark (by decide) (by decide)
  rw [lineComment_eq, lineComment_eq, List.dropWhile_append, if_neg hd, List.dropWhile_append,
    if_neg hd, ho, hw, Text.after?_append hb, Text.after?_append hz, ← ho, ← hw]
  cases ha : after? Pattern.commentMark (cs.dropWhile isSpace) with
  | none => exact .inl ⟨rfl, rfl⟩
  | some rest =>
    simp only [Option.map_some]
    by_cases hr : (rest.dropWhile fun c ↦ !isBreak c).isEmpty = true
    · have hline : (rest ++ S.whole).dropWhile (fun c ↦ !isBreak c) = S.afterLine := by
        rw [List.dropWhile_append, if_pos hr]
        rfl
      rw [List.dropWhile_append, if_pos hr, dropWhile_notBreak_old, hline]
      exact .inr (.inr ⟨_, _, rfl, rfl⟩)
    · rw [List.dropWhile_append, if_neg hr, List.dropWhile_append, if_neg hr]
      exact .inr (.inl ⟨_, _, _, rfl, rfl⟩)

theorem blanks_of_spaces {cs : List Char} (h : ∀ c ∈ cs, isSpace c = true) :
    Pattern.blanks (cs ++ S.old) = some (cs, S.old) := by
  induction cs with
  | nil => exact S.old_blanks
  | cons c cs ih =>
    obtain ⟨hc, hcs⟩ := List.forall_mem_cons.1 h
    rw [List.cons_append, Pattern.blanks, if_pos (by simp [hc]), ih hcs]
    rfl

theorem match?_blanks {cs : List Char} (hcs : cs ≠ []) (h : ∀ c ∈ cs, isSpace c = true) :
    Shape.match? ⟨.whitespace, Pattern.whitespace⟩ (cs ++ S.old) = some ⟨.whitespace, cs, S.old⟩ := by
  refine Shape.match?_eq_some_iff.2 ⟨rfl, ?_, hcs⟩
  exact Option.filter_eq_some_iff.2 ⟨blanks_of_spaces h, by simpa using hcs⟩

theorem match?_lineComment {cs t r : List Char} (h : Pattern.lineComment cs = some (t, r)) :
    Shape.match? ⟨.lineComment, Pattern.lineComment⟩ cs = some ⟨.lineComment, t, r⟩ := by
  refine Shape.match?_eq_some_iff.2 ⟨rfl, h, ?_⟩
  rw [lineComment_eq] at h
  obtain ⟨rest, -, he⟩ := Option.map_eq_some_iff.1 h
  obtain ⟨rfl, -⟩ := Prod.mk.inj he
  simp [Pattern.commentMark]

/-- A line comment before blanks, which become one where a comment was put in. -/
theorem KeepsFirst.cons_lineComment
    (hss : S.KeepsFirst (⟨.whitespace, Pattern.whitespace⟩ :: ss)) :
    S.KeepsFirst (⟨.lineComment, Pattern.lineComment⟩ ::
      ⟨.whitespace, Pattern.whitespace⟩ :: ss) := by
  intro cs m rest hcs hc h hr
  have hkeep (hx : Pattern.lineComment (cs ++ S.old) = none)
      (hy : Pattern.lineComment (cs ++ S.whole) = none) :
      ∃ m', Shape.first? (⟨.lineComment, Pattern.lineComment⟩ ::
        ⟨.whitespace, Pattern.whitespace⟩ :: ss) (cs ++ S.whole) = some m' ∧ S.Onward m m' := by
    rw [Shape.first?, List.findSome?_cons, Shape.match?_of_none hx] at h
    rw [Shape.first?, List.findSome?_cons, Shape.match?_of_none hy]
    exact hss cs m rest hcs hc h hr
  by_cases hd : (cs.dropWhile isSpace).isEmpty = true
  · obtain ⟨hx, hy | ⟨u, hy⟩⟩ := @lineComment_of_blanks S cs hd
    · exact hkeep hx hy
    · have hspace : ∀ c ∈ cs, isSpace c = true :=
        List.dropWhile_eq_nil_iff.1 (List.isEmpty_iff.1 hd)
      rw [Shape.first?, List.findSome?_cons, Shape.match?_of_none hx, List.findSome?_cons,
        match?_blanks hcs hspace] at h
      obtain rfl := Option.some.inj h
      rw [Shape.first?, List.findSome?_cons, match?_lineComment hy]
      exact ⟨_, rfl, .inr ⟨rfl, rfl, rfl, rfl⟩⟩
  · rcases @lineComment_ahead S cs hd with ⟨hx, hy⟩ | ⟨t, u, rest', hx, hy⟩ | ⟨t, u, hx, hy⟩
    · exact hkeep hx hy
    all_goals
      rw [Shape.first?, List.findSome?_cons, match?_lineComment hx] at h
      obtain rfl := Option.some.inj h
      rw [Shape.first?, List.findSome?_cons, match?_lineComment hy]
    · have ha : S.Ahead (rest' ++ S.old) (rest' ++ S.whole) := ⟨rest', rfl, rfl⟩
      have hu : u = t := ha.taken (Pattern.splits_lineComment _ _ _ hx)
        (Pattern.splits_lineComment _ _ _ hy)
      exact ⟨_, rfl, .inl ⟨rfl, .inl ⟨hu, ha⟩⟩⟩
    · exact ⟨_, rfl, .inr ⟨rfl, rfl, rfl, rfl⟩⟩

theorem keepsFirst_all (k : Kind) : S.KeepsFirst (Shape.base ++ k.shapes) := by
  have hend : S.KeepsFirst (⟨.newline, Pattern.lineEnd⟩ :: k.shapes) :=
    (keepsFirst_shapes k).cons Pattern.splits_lineEnd Pattern.keeps_lineEnd
      Pattern.misses_lineEnd
  have hblank : S.KeepsFirst (⟨.whitespace, Pattern.whitespace⟩ ::
      ⟨.newline, Pattern.lineEnd⟩ :: k.shapes) :=
    hend.cons Pattern.splits_whitespace Pattern.keeps_blanks.nonempty
      (Pattern.misses_blanks.nonempty Pattern.splits_blanks Pattern.keeps_blanks)
  exact hblank.cons_lineComment.cons Pattern.splits_blockComment
    (keeps_of_finds_ahead Pattern.splits_blockComment Pattern.finds_blockComment.before)
    (misses_of_loses Pattern.loses_blockComment.before)

theorem keepsFirst_tried (k : Kind) (atStart : Bool) : S.KeepsFirst (k.tried atStart) := by
  cases atStart with
  | false => exact keepsFirst_all k
  | true =>
    exact (keepsFirst_all k).cons Pattern.splits_directive
      (keeps_of_finds_ahead Pattern.splits_directive Pattern.finds_directive.before)
      (misses_of_loses Pattern.loses_directive.before)

/-- A match before the seam in the old text has one to follow it in the new text. -/
theorem exists_onward (k : Kind) {before cs rest : List Char} {m : Match} (hcs : cs ≠ [])
    (hc : S.Clear cs) (h : k.grammar.lexicon.match? ⟨before, cs ++ S.old⟩ = some m)
    (hr : m.rest = rest ++ S.old) :
    ∃ m', k.grammar.lexicon.match? ⟨before, cs ++ S.whole⟩ = some m' ∧ S.Onward m m' := by
  rw [k.match?_eq_first?] at h ⊢
  exact keepsFirst_tried k _ cs m rest hcs hc h hr

end Seam

end DiagramText
