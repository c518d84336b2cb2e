import DiagramText.Proofs.AlikeTrees

namespace DiagramText

open Text (isBlank isBreak withReturns)
open Pattern (isSpace)

/-- A way to write what was taken from a text: line feeds as they stand, or otherwise. -/
structure Spelling (f : List Char → List Char) : Prop where
  append (as bs : List Char) : f (as ++ bs) = f as ++ f bs
  of_not_mem {cs : List Char} : '\n' ∉ cs → f cs = cs
  isEmpty (cs : List Char) : (f cs).isEmpty = cs.isEmpty

theorem spelling_id : Spelling id :=
  ⟨fun _ _ ↦ rfl, fun _ ↦ rfl, fun _ ↦ rfl⟩

theorem spelling_withReturns : Spelling withReturns :=
  ⟨Text.withReturns_append, Text.withReturns_of_not_mem, Text.isEmpty_withReturns⟩

namespace Spelling

variable {f : List Char → List Char}

theorem nil (hf : Spelling f) : f [] = [] :=
  hf.of_not_mem (by simp)

theorem cons (hf : Spelling f) {c : Char} (hc : c ≠ '\n') (cs : List Char) :
    f (c :: cs) = c :: f cs := by
  have hsingle : f [c] = [c] := hf.of_not_mem (by simpa using Ne.symm hc)
  rw [← List.singleton_append, hf.append, hsingle, List.singleton_append]

end Spelling

theorem not_return_of_append {cs as bs : List Char} (h : '\r' ∉ cs) (he : cs = as ++ bs) :
    '\r' ∉ as ∧ '\r' ∉ bs := by
  rw [he, List.mem_append, not_or] at h
  exact h

namespace Pattern

variable {f : List Char → List Char} {p q : Pattern} {c : Char → Bool} {mark : List Char}

/-- Where line feeds have carriage returns before them, the pattern takes the same in the
spelling `f`, and leaves the same. -/
def Respells (f : List Char → List Char) (p : Pattern) : Prop :=
  ∀ cs, '\r' ∉ cs → p (withReturns cs) = (p cs).map (Prod.map f withReturns)

theorem respells_literal (hf : Spelling f) (hr : '\r' ∉ mark) (hn : '\n' ∉ mark) :
    Respells f (literal mark) := by
  intro cs _
  rw [literal, literal, Text.after?_withReturns hr hn]
  cases Text.after? mark cs with
  | none => rfl
  | some rest => simp [hf.of_not_mem hn]

theorem respells_many (hf : Spelling f) (hr : c '\r' = false) (hn : c '\n' = false) :
    Respells f (many c) := by
  intro cs _
  have hclear : '\n' ∉ cs.takeWhile c := by
    intro h
    rw [List.mem_takeWhile_imp h] at hn
    cases hn
  rw [many, many, Text.takeWhile_withReturns_of_neg hr hn,
    Text.dropWhile_withReturns (hr.trans hn.symm), Option.map_some, Prod.map_apply,
    hf.of_not_mem hclear]

theorem respells_many_isBlank : Respells withReturns (many isBlank) := by
  intro cs _
  rw [many, many, Text.takeWhile_withReturns (by decide), Text.dropWhile_withReturns (by decide),
    Option.map_some, Prod.map_apply]

theorem respells_one (hf : Spelling f) (hr : c '\r' = false) (hn : c '\n' = false) :
    Respells f (one c) := by
  intro cs _
  cases cs with
  | nil => rfl
  | cons a cs =>
    by_cases ha : a = '\n'
    · simp [ha, one, hr, hn]
    · rw [Text.withReturns_cons ha, one, one]
      split
      · rw [Option.map_some, Prod.map_apply, hf.cons ha, hf.nil]
      · rfl

theorem respells_through (hm : mark ≠ []) (hr : '\r' ∉ mark) (hn : '\n' ∉ mark) :
    Respells withReturns (through mark) := by
  intro cs _
  rw [through, through, Text.cut?_withReturns hm hr hn]
  cases Text.cut? mark cs with
  | none => rfl
  | some cut => simp [Text.withReturns_of_not_mem hn]

theorem Respells.seq (hf : Spelling f) (hp : Respells f p) (hs : Splits p) (hq : Respells f q) :
    Respells f (p.seq q) := by
  intro cs h
  rw [Pattern.seq, Pattern.seq, hp cs h]
  cases hc : p cs with
  | none => rfl
  | some m =>
    obtain ⟨taken, rest⟩ := m
    have hrest := (not_return_of_append h (hs cs taken rest hc)).2
    simp only [Option.map_some, Prod.map_apply, Option.bind_some, hq rest hrest]
    cases q rest with
    | none => rfl
    | some m => simp [hf.append]

theorem Respells.alt (hp : Respells f p) (hq : Respells f q) : Respells f (p.alt q) := by
  intro cs h
  unfold Pattern.alt
  rw [hp cs h]
  cases p cs with
  | none => exact hq cs h
  | some m => rfl

theorem Respells.optional (hf : Spelling f) (hp : Respells f p) : Respells f p.optional := by
  intro cs h
  unfold Pattern.optional
  rw [hp cs h]
  cases p cs with
  | none => simp [hf.nil]
  | some m => rfl

theorem Respells.whenRest {ok : List Char → Bool} (hp : Respells f p)
    (ho : ∀ cs, ok (withReturns cs) = ok cs) : Respells f (p.whenRest ok) := by
  intro cs h
  unfold Pattern.whenRest
  rw [hp cs h]
  cases p cs with
  | none => rfl
  | some m => cases hm : ok m.2 <;> simp [Option.filter_some, ho, hm]

theorem nonempty_withReturns (hf : Spelling f) {cs : List Char}
    (h : p (withReturns cs) = (p cs).map (Prod.map f withReturns)) :
    p.nonempty (withReturns cs) = (p.nonempty cs).map (Prod.map f withReturns) := by
  unfold Pattern.nonempty
  rw [h]
  cases p cs with
  | none => rfl
  | some m => cases hm : m.1.isEmpty <;> simp [Option.filter_some, hf.isEmpty, hm]

theorem Respells.nonempty (hf : Spelling f) (hp : Respells f p) : Respells f p.nonempty :=
  fun cs h ↦ nonempty_withReturns hf (hp cs h)

theorem respells_many1 (hf : Spelling f) (hr : c '\r' = false) (hn : c '\n' = false) :
    Respells f (many1 c) := by
  have hmany1 : many1 c = (many c).nonempty := by
    funext cs
    unfold many1 Pattern.nonempty many
    cases hc : cs.takeWhile c <;> simp [Option.filter_some]
  rw [hmany1]
  exact (respells_many hf hr hn).nonempty hf

theorem startsWith_commentMark_withReturns (cs : List Char) :
    Text.startsWith commentMark (withReturns cs) = Text.startsWith commentMark cs :=
  Text.startsWith_withReturns (by decide) (by decide) cs

theorem respells_freeText (hf : Spelling f) (stops : List Char) : Respells f (freeText stops) := by
  intro cs h
  induction cs with
  | nil => simp [freeText, hf.nil]
  | cons c cs ih =>
    by_cases hc : c = '\n'
    · simp [hc, freeText, isBreak, hf.nil]
    · have hmark := startsWith_commentMark_withReturns (c :: cs)
      rw [Text.withReturns_cons hc] at hmark ⊢
      rw [freeText, freeText, hmark]
      split
      · simp [hf.nil, Text.withReturns_cons hc]
      · rw [ih (not_return_of_append h (List.singleton_append (x := c)).symm).2]
        cases freeText stops cs with
        | none => rfl
        | some m => simp [hf.cons hc]

/-- Every carriage return put in begins a line end, so none of them is a blank. -/
theorem respells_blanks (hf : Spelling f) : Respells f blanks := by
  intro cs h
  induction cs with
  | nil => simp [blanks, hf.nil]
  | cons c cs ih =>
    obtain ⟨hr, hcs⟩ := not_return_of_append h (List.singleton_append (x := c)).symm
    have hr : c ≠ '\r' := fun he ↦ hr (by simp [he])
    have hblanks (ds : List Char) : blanks (c :: ds) =
        if isSpace c then (blanks ds).map (Prod.map (c :: ·) id) else some ([], c :: ds) := by
      have hmore : (isSpace c || c = '\r' && ds.head? ≠ some '\n') = isSpace c := by simp [hr]
      rw [blanks, hmore]
      rfl
    by_cases hc : c = '\n'
    · simp [hc, blanks, isSpace, hf.nil]
    · rw [Text.withReturns_cons hc, hblanks, hblanks]
      split
      · rw [ih hcs]
        cases blanks cs with
        | none => rfl
        | some m => simp [Prod.map, hf.cons hc]
      · simp [hf.nil, Text.withReturns_cons hc]

theorem respells_lineEnd : Respells withReturns lineEnd := by
  intro cs h
  cases cs with
  | nil => rfl
  | cons c cs =>
    have hr : '\r' ≠ c := fun he ↦ h (he ▸ List.mem_cons_self)
    by_cases hc : c = '\n'
    · rw [hc]
      rfl
    · simp [Text.withReturns_cons hc, lineEnd, alt, literal, Text.after?, hr, Ne.symm hc]

theorem respells_lineComment (hf : Spelling f) : Respells f lineComment :=
  (respells_many hf (by decide) (by decide)).seq hf (splits_many _)
    ((respells_literal hf (by decide) (by decide)).seq hf (splits_literal _)
      (respells_many hf (by decide) (by decide)))

theorem respells_blockComment : Respells withReturns blockComment :=
  (respells_many spelling_withReturns (by decide) (by decide)).seq spelling_withReturns
    (splits_many _)
    ((respells_literal spelling_withReturns (by decide) (by decide)).seq spelling_withReturns
      (splits_literal _) (respells_through (by simp) (by decide) (by decide)))

theorem respells_directive : Respells withReturns directive :=
  (respells_literal spelling_withReturns (by decide) (by decide)).seq spelling_withReturns
    (splits_literal _) (respells_through (by simp) (by decide) (by decide))

theorem respells_keyword (hf : Spelling f) {word : List Char} (hr : '\r' ∉ word)
    (hn : '\n' ∉ word) : Respells f (keyword word) :=
  (respells_literal hf hr hn).whenRest fun cs ↦
    congrArg _ (Text.any_head?_withReturns (by decide) cs)

theorem respells_identifier (hf : Spelling f) : Respells f identifier :=
  (respells_one hf (by decide) (by decide)).seq hf (splits_one _)
    (respells_many hf (by decide) (by decide))

theorem respells_digits (hf : Spelling f) : Respells f digits := by
  have hmany : Respells f (many1 Char.isDigit) := respells_many1 hf (by decide) (by decide)
  have hpoint : Respells f (literal ['.']) := respells_literal hf (by decide) (by decide)
  exact hmany.seq hf (splits_many1 _) ((hpoint.seq hf (splits_literal _) hmany).optional hf)

theorem respells_number (hf : Spelling f) : Respells f number :=
  (respells_digits hf).whenRest fun cs ↦
    congrArg _ (Text.any_head?_withReturns (by decide) cs)

theorem respells_quoted (hf : Spelling f) {quote : Char} (hr : quote ≠ '\r')
    (hn : quote ≠ '\n') : Respells f (quoted quote) := by
  have hmark : Respells f (literal [quote]) :=
    respells_literal hf (by simpa using hr.symm) (by simpa using hn.symm)
  exact hmark.seq hf (splits_literal _)
    ((respells_many hf (by simp [isBreak]) (by simp [isBreak])).seq hf (splits_many _) hmark)

theorem respells_string (hf : Spelling f) : Respells f string :=
  (respells_quoted hf (by decide) (by decide)).alt (respells_quoted hf (by decide) (by decide))

theorem respells_title (hf : Spelling f) : Respells f title := by
  refine Respells.seq hf ((respells_literal hf (by decide) (by decide)).whenRest fun cs ↦ ?_)
    ((splits_literal _).whenRest _) (respells_freeText hf _)
  rw [Text.all_head?_withReturns (by decide), startsWith_commentMark_withReturns]

theorem respells_labelled (hf : Spelling f) {word : List Char} (hr : '\r' ∉ word)
    (hn : '\n' ∉ word) : Respells f (labelled word) :=
  (respells_literal hf hr hn).seq hf (splits_literal _)
    ((respells_many hf (by decide) (by decide)).seq hf (splits_many _)
      ((respells_literal hf (by decide) (by decide)).seq hf (splits_literal _)
        (respells_freeText hf _)))

theorem respells_accDescr : Respells withReturns accDescr := by
  have hf := spelling_withReturns
  have hblock : Respells withReturns ((literal ['\x7b']).seq (through ['\x7d'])) :=
    (respells_literal hf (by decide) (by decide)).seq hf (splits_literal _)
      (respells_through (by simp) (by decide) (by decide))
  exact (respells_labelled hf (by decide) (by decide)).alt
    ((respells_literal hf (by decide) (by decide)).seq hf (splits_literal _)
      (respells_many_isBlank.seq hf (splits_many _) hblock))

theorem accDescr_eq_some {cs taken rest : List Char} (hr : '\r' ∉ cs)
    (h : accDescr cs = some (taken, rest)) :
    withReturns taken = taken ∨ ∃ blanks text, (∀ c ∈ blanks, isBlank c = true) ∧
      taken = "accDescr".toList ++ (blanks ++ '\x7b' :: text) := by
  unfold accDescr alt at h
  split at h
  · rename_i m hm
    obtain rfl := Option.some.inj h
    have hid : Respells id (labelled "accDescr".toList) :=
      respells_labelled spelling_id (by decide) (by decide)
    have hwith : Respells withReturns (labelled "accDescr".toList) :=
      respells_labelled spelling_withReturns (by decide) (by decide)
    have hboth := (hwith cs hr).symm.trans (hid cs hr)
    rw [hm] at hboth
    exact .inl (Prod.mk.inj (Option.some.inj hboth)).1
  · obtain ⟨_, _, _, hword, htail, rfl⟩ := seq_eq_some_iff.1 h
    obtain ⟨_, _, _, hblanks, hblock, rfl⟩ := seq_eq_some_iff.1 htail
    obtain ⟨_, _, text, hopen, -, rfl⟩ := seq_eq_some_iff.1 hblock
    obtain ⟨rfl, -⟩ := literal_eq_some_iff.1 hword
    obtain ⟨rfl, -⟩ := many_eq_some_iff.1 hblanks
    obtain ⟨rfl, -⟩ := literal_eq_some_iff.1 hopen
    exact .inr ⟨_, text, fun c hc ↦ List.mem_takeWhile_imp hc, rfl⟩

theorem respells_sankeyValue (hf : Spelling f) : Respells f sankeyValue := by
  have hquote : Respells f (literal ['"']) := respells_literal hf (by decide) (by decide)
  have hdigits := respells_digits hf
  refine Respells.whenRest (hdigits.alt (hquote.seq hf (splits_literal _)
    (hdigits.seq hf splits_digits hquote))) fun cs ↦ ?_
  rw [endsLine, endsLine, Text.dropWhile_withReturns (by decide),
    Text.all_head?_withReturns (by decide), startsWith_commentMark_withReturns]

theorem respells_sectionTitle (hf : Spelling f) : Respells f sectionTitle :=
  (respells_literal hf (by decide) (by decide)).seq hf (splits_literal _)
    ((respells_many1 hf (by decide) (by decide)).seq hf (splits_many1 _)
      ((respells_freeText hf _).nonempty hf))

theorem respells_periodEvent (hf : Spelling f) : Respells f periodEvent :=
  (respells_literal hf (by decide) (by decide)).seq hf (splits_literal _)
    ((respells_many hf (by decide) (by decide)).seq hf (splits_many _)
      ((respells_freeText hf _).nonempty hf))

theorem respells_enclosed (hf : Spelling f) {opening closing : List Char} {inner : Char → Bool}
    (ho : '\r' ∉ opening ∧ '\n' ∉ opening) (hi : inner '\r' = false ∧ inner '\n' = false)
    (hc : '\r' ∉ closing ∧ '\n' ∉ closing) : Respells f (enclosed opening inner closing) :=
  (respells_literal hf ho.1 ho.2).seq hf (splits_literal _)
    ((respells_many1 hf hi.1 hi.2).seq hf (splits_many1 _) (respells_literal hf hc.1 hc.2))

/-- A quoted field may hold line feeds, so this is said of texts without quotes. -/
theorem sankeyNode_withReturns (hf : Spelling f) {cs : List Char} (hr : '\r' ∉ cs)
    (hq : '"' ∉ cs) :
    sankeyNode (withReturns cs) = (sankeyNode cs).map (Prod.map f withReturns) := by
  have hbare : Text.startsWith ['"'] cs = false := by
    cases cs with
    | nil => rfl
    | cons c cs =>
      have hc : '"' ≠ c := fun he ↦ hq (he ▸ List.mem_cons_self)
      simp [Text.startsWith, Text.after?, hc]
  have hbare' : Text.startsWith ['"'] (withReturns cs) = false := by
    rw [Text.startsWith_withReturns (by decide) (by decide), hbare]
  rw [sankeyNode, sankeyNode, hbare, hbare']
  exact (respells_freeText hf _).nonempty hf cs hr

end Pattern

/-- How tokens of a kind are written where line feeds have carriage returns before them. Only those
over more than a line differ. -/
def Token.Kind.respell : Token.Kind → List Char → List Char
  | .newline | .accDescr | .blockComment | .directive => withReturns
  | _ => id

def Match.withReturns (m : Match) : Match :=
  ⟨m.kind, m.kind.respell m.text, Text.withReturns m.rest⟩

theorem Token.Kind.spelling_respell (kind : Token.Kind) : Spelling kind.respell := by
  cases kind with
  | newline | accDescr | blockComment | directive => exact spelling_withReturns
  | _ => exact spelling_id

theorem Shape.match?_withReturns {s : Shape} {cs : List Char}
    (h : s.pattern (withReturns cs) = (s.pattern cs).map (Prod.map s.kind.respell withReturns)) :
    s.match? (withReturns cs) = (s.match? cs).map Match.withReturns := by
  rw [match?, match?, Pattern.nonempty_withReturns s.kind.spelling_respell h, Option.map_map,
    Option.map_map]
  rfl

theorem Shape.first?_withReturns {ss : List Shape} {cs : List Char}
    (h : ∀ s ∈ ss, s.pattern (withReturns cs) =
      (s.pattern cs).map (Prod.map s.kind.respell withReturns)) :
    first? ss (withReturns cs) = (first? ss cs).map Match.withReturns := by
  induction ss with
  | nil => rfl
  | cons s ss ih =>
    obtain ⟨hs, hss⟩ := List.forall_mem_cons.1 h
    have ih := ih hss
    rw [first?, first?] at ih
    rw [first?, first?, List.findSome?_cons, List.findSome?_cons, match?_withReturns hs, ih]
    cases s.match? cs <;> rfl

/-- The text has no carriage returns, and no quoted fields that may go over line ends. -/
def Kind.OnlyFeeds (k : Kind) (cs : List Char) : Prop :=
  '\r' ∉ cs ∧ (k = .sankey → '"' ∉ cs)

namespace Kind

open Pattern

theorem respells_annotations {cs : List Char} (hr : '\r' ∉ cs) :
    ∀ s ∈ Shape.annotations, s.pattern (withReturns cs) =
      (s.pattern cs).map (Prod.map s.kind.respell withReturns) := by
  simp only [Shape.annotations, List.forall_mem_cons]
  exact ⟨respells_accDescr cs hr, respells_labelled spelling_id (by decide) (by decide) cs hr,
    respells_title spelling_id cs hr, by simp⟩

theorem respells_base {cs : List Char} (hr : '\r' ∉ cs) :
    ∀ s ∈ Shape.base, s.pattern (withReturns cs) =
      (s.pattern cs).map (Prod.map s.kind.respell withReturns) := by
  simp only [Shape.base, List.forall_mem_cons]
  exact ⟨respells_blockComment cs hr, respells_lineComment spelling_id cs hr,
    (respells_blanks spelling_id).nonempty spelling_id cs hr, respells_lineEnd cs hr, by simp⟩

theorem respells_shapes {k : Kind} {cs : List Char} (h : k.OnlyFeeds cs) :
    ∀ s ∈ k.shapes, s.pattern (withReturns cs) =
      (s.pattern cs).map (Prod.map s.kind.respell withReturns) := by
  obtain ⟨hr, hq⟩ := h
  have hf := spelling_id
  have ha := respells_annotations hr
  have hk (w : Keyword) : (Shape.keyword w).pattern (withReturns cs) =
      ((Shape.keyword w).pattern cs).map (Prod.map id withReturns) :=
    respells_keyword hf (by cases w <;> decide) (by cases w <;> decide) cs hr
  have hs (s : Symbol) : (Shape.symbol s).pattern (withReturns cs) =
      ((Shape.symbol s).pattern cs).map (Prod.map id withReturns) :=
    respells_literal hf (by cases s <;> decide) (by cases s <;> decide) cs hr
  cases k with
  | info =>
    simp only [shapes, List.forall_mem_append, List.forall_mem_cons]
    exact ⟨⟨hk _, hk _, by simp⟩, ha⟩
  | pie =>
    simp only [shapes, List.forall_mem_append, List.forall_mem_cons]
    exact ⟨⟨⟨hk _, hk _, by simp⟩, ha⟩, respells_number hf cs hr, respells_string hf cs hr, hs _,
      by simp⟩
  | packet =>
    simp only [shapes, List.forall_mem_append, List.forall_mem_cons]
    exact ⟨⟨⟨hk _, hk _, by simp⟩, ha⟩, respells_number hf cs hr, respells_string hf cs hr, hs _,
      hs _, hs _, by simp⟩
  | sankey =>
    simp only [shapes, List.forall_mem_append, List.forall_mem_cons]
    exact ⟨⟨⟨hk _, hk _, by simp⟩, ha⟩, respells_sankeyValue hf cs hr,
      sankeyNode_withReturns hf hr (hq rfl), hs _, by simp⟩
  | timeline =>
    simp only [shapes, List.forall_mem_append, List.forall_mem_cons]
    exact ⟨⟨⟨hk _, by simp⟩, ha⟩, respells_sectionTitle hf cs hr, hk _,
      respells_periodEvent hf cs hr, (respells_freeText hf _).nonempty hf cs hr, by simp⟩
  | architecture =>
    simp only [shapes, List.forall_mem_append, List.forall_mem_cons]
    exact ⟨⟨⟨hk _, hk _, hk _, hk _, hk _, hk _, by simp⟩, ha⟩,
      respells_enclosed hf (by decide) (by decide) (by decide) cs hr,
      respells_enclosed hf (by decide) (by decide) (by decide) cs hr,
      respells_enclosed hf (by decide) (by decide) (by decide) cs hr,
      respells_identifier hf cs hr, hs _, hs _, hs _, hs _, hs _, hs _, by simp⟩

theorem respells_tried {k : Kind} {cs : List Char} (h : k.OnlyFeeds cs) (atStart : Bool) :
    ∀ s ∈ k.tried atStart, s.pattern (withReturns cs) =
      (s.pattern cs).map (Prod.map s.kind.respell withReturns) := by
  have hall : ∀ s ∈ Shape.base ++ k.shapes, s.pattern (withReturns cs) =
      (s.pattern cs).map (Prod.map s.kind.respell withReturns) :=
    List.forall_mem_append.2 ⟨respells_base h.1, respells_shapes h⟩
  cases atStart with
  | false => exact hall
  | true => exact List.forall_mem_cons.2 ⟨respells_directive cs h.1, hall⟩

end Kind

def Cursor.withReturns (c : Cursor) : Cursor :=
  ⟨(Text.withReturns c.before.reverse).reverse, Text.withReturns c.after⟩

namespace Kind

variable {k : Kind} {c c' d : Cursor} {m : Match} {ts us : List Token}

theorem match?_withReturns (h : k.OnlyFeeds c.after) :
    k.grammar.lexicon.match? c.withReturns =
      (k.grammar.lexicon.match? c).map Match.withReturns := by
  have hblank : c.withReturns.before.all isBlank = c.before.all isBlank := by
    rw [Cursor.withReturns, List.all_reverse, Text.all_withReturns (by decide), List.all_reverse]
  rw [k.match?_eq_first?, k.match?_eq_first?, hblank]
  exact Shape.first?_withReturns (respells_tried h _)

theorem respell_eq_of_match? (h : k.OnlyFeeds c.after) (hm : k.grammar.lexicon.match? c = some m) :
    m.kind.respell m.text = withReturns m.text := by
  have hm' : k.grammar.lexicon.match? c.withReturns = some m.withReturns := by
    rw [match?_withReturns h, hm]
    rfl
  have hsplit := (Lexicon.after_eq_of_match? hm').1
  rw [Cursor.withReturns, (Lexicon.after_eq_of_match? hm).1, Text.withReturns_append] at hsplit
  exact (List.append_cancel_right hsplit).symm

theorem past_withReturns (h : k.OnlyFeeds c.after) (hm : k.grammar.lexicon.match? c = some m) :
    c.withReturns.past m.withReturns.text m.withReturns.rest =
      (c.past m.text m.rest).withReturns := by
  have htext : m.withReturns.text = withReturns m.text := respell_eq_of_match? h hm
  rw [Cursor.past, Cursor.past, Cursor.withReturns, Cursor.withReturns, htext, List.reverse_append,
    List.reverse_reverse, Text.withReturns_append, List.reverse_append]
  rfl

theorem OnlyFeeds.rest (h : k.OnlyFeeds c.after) (hm : k.grammar.lexicon.match? c = some m) :
    k.OnlyFeeds m.rest := by
  rw [(Lexicon.after_eq_of_match? hm).1] at h
  exact ⟨(not_return_of_append h.1 rfl).2, fun hk hq ↦ h.2 hk (List.mem_append_right _ hq)⟩

theorem rebroken_of_match? (h : k.OnlyFeeds c.after) (hm : k.grammar.lexicon.match? c = some m)
    (hh : m.kind.isHidden = false) :
    m.withReturns.text = m.text ∨ (Token.Rebroken m.kind m.text m.withReturns.text ∧
      Token.Rebroken m.kind m.withReturns.text m.text) := by
  have htext : m.withReturns.text = withReturns m.text := respell_eq_of_match? h hm
  obtain ⟨kind, text, rest⟩ := m
  cases kind with
  | newline => exact .inr ⟨.newline, .newline⟩
  | accDescr =>
    have hp : Pattern.accDescr c.after = some (text, rest) := eq_of_match? hm rfl
    rcases Pattern.accDescr_eq_some h.1 hp with he | ⟨blanks, inner, hb, he⟩
    · exact .inl (htext.trans he)
    · obtain rfl : text = _ := he
      have hr : '\r' ∉ inner := fun hmem ↦ h.1 (by
        rw [Pattern.splits_accDescr _ _ _ hp]
        simp [hmem])
      have hword : withReturns "accDescr".toList = "accDescr".toList :=
        Text.withReturns_of_not_mem (by decide)
      rw [htext, Text.withReturns_append, Text.withReturns_append, hword,
        Text.withReturns_cons (by decide)]
      exact .inr ⟨.returns hb hr, .feeds hb hr⟩
  | whitespace | lineComment | blockComment | directive => cases hh
  | _ => exact .inl rfl

theorem alike_withReturns (h : k.OnlyFeeds c.after) (hm : k.grammar.lexicon.match? c = some m)
    (hh : m.kind.isHidden = false) :
    (Lexicon.token m.kind c m.text).Alike (Lexicon.token m.kind d m.withReturns.text) ∧
      (Lexicon.token m.kind d m.withReturns.text).Alike (Lexicon.token m.kind c m.text) := by
  rcases rebroken_of_match? h hm hh with he | ⟨hb, hb'⟩
  · rw [he]
    exact ⟨⟨rfl, .inl rfl⟩, ⟨rfl, .inl rfl⟩⟩
  · refine ⟨⟨rfl, .inr (.inr ?_)⟩, ⟨rfl, .inr (.inr ?_)⟩⟩
    · simpa [Lexicon.token] using hb
    · simpa [Lexicon.token] using hb'

theorem exists_walk_withReturns (h : k.grammar.lexicon.Walks c ts [] c')
    (ho : k.OnlyFeeds c.after) :
    ∃ us, k.grammar.lexicon.Walks c.withReturns us [] c'.withReturns ∧ TokensAlike ts us := by
  generalize he : ([] : List Diagnostic) = es at h
  have hmatch {c : Cursor} {m : Match} (ho : k.OnlyFeeds c.after)
      (hm : k.grammar.lexicon.match? c = some m) :
      k.grammar.lexicon.match? c.withReturns = some m.withReturns := by
    rw [match?_withReturns ho, hm]
    rfl
  induction h with
  | done c => exact ⟨[], .done _, .nil⟩
  | skip hm hh _ ih =>
    obtain ⟨us, hw, hts⟩ := ih (ho.rest hm) he
    rw [← past_withReturns ho hm] at hw
    subst he
    exact ⟨us, .skip (hmatch ho hm) hh hw, hts⟩
  | take hm hh _ ih =>
    obtain ⟨us, hw, hts⟩ := ih (ho.rest hm) he
    rw [← past_withReturns ho hm] at hw
    subst he
    exact ⟨_, .take (hmatch ho hm) hh hw, .cons (alike_withReturns ho hm hh).1 hts⟩
  | giveUp => cases he

theorem exists_walk_of_withReturns {e : Cursor} (h : k.grammar.lexicon.Walks d us [] e)
    (hd : d = c.withReturns) (ho : k.OnlyFeeds c.after) :
    ∃ ts c', k.grammar.lexicon.Walks c ts [] c' ∧ e = c'.withReturns ∧ TokensAlike us ts := by
  generalize he : ([] : List Diagnostic) = es at h
  have hmatch {c d : Cursor} {m' : Match} (ho : k.OnlyFeeds c.after) (hd : d = c.withReturns)
      (hm : k.grammar.lexicon.match? d = some m') :
      ∃ m, k.grammar.lexicon.match? c = some m ∧ m.withReturns = m' := by
    rw [hd, match?_withReturns ho] at hm
    exact Option.map_eq_some_iff.1 hm
  induction h generalizing c with
  | done d => exact ⟨[], c, .done c, hd, .nil⟩
  | skip hm' hh _ ih =>
    obtain ⟨m, hm, rfl⟩ := hmatch ho hd hm'
    obtain ⟨ts, c', hw, hc', hts⟩ := ih (hd ▸ past_withReturns ho hm) (ho.rest hm) he
    subst he
    exact ⟨ts, c', .skip hm hh hw, hc', hts⟩
  | take hm' hh _ ih =>
    obtain ⟨m, hm, rfl⟩ := hmatch ho hd hm'
    obtain ⟨ts, c', hw, hc', hts⟩ := ih (hd ▸ past_withReturns ho hm) (ho.rest hm) he
    subst he
    exact ⟨_, c', .take hm hh hw, hc', .cons (alike_withReturns ho hm hh).2 hts⟩
  | giveUp => cases he

/-- It makes no difference to a diagram whether lines end with a line feed or with a carriage return
and a line feed. -/
theorem parse_withReturns {text : String} {tree : Diagram} (hr : '\r' ∉ text.toList)
    (hq : k = .sankey → '"' ∉ text.toList) :
    k.parse (String.ofList (withReturns text.toList)) = .ok tree ↔ k.parse text = .ok tree := by
  have ho : k.OnlyFeeds (Cursor.start text.toList).after := ⟨hr, hq⟩
  have hlist : (String.ofList (withReturns text.toList)).toList = withReturns text.toList := by simp
  have hstart : Cursor.start (withReturns text.toList) =
      (Cursor.start text.toList).withReturns := rfl
  constructor
  · intro h
    obtain ⟨d, hend, hwalk⟩ := k.grammar.lexicon.walks_scan (.start (withReturns text.toList))
    have hclean := (parse_eq_ok_iff.1 h).1
    rw [hlist, Lexicon.tokenize] at hclean
    rw [hclean] at hwalk
    obtain ⟨ts, c', hw, rfl, hts⟩ := exists_walk_of_withReturns hwalk hstart ho
    refine parse_of_walks h hw ?_ (by rwa [hlist])
    rwa [Cursor.withReturns, ← List.isEmpty_iff, Text.isEmpty_withReturns, List.isEmpty_iff] at hend
  · intro h
    obtain ⟨c', hend, hwalk⟩ := k.grammar.lexicon.walks_scan (.start text.toList)
    have hclean := (parse_eq_ok_iff.1 h).1
    rw [Lexicon.tokenize] at hclean
    rw [hclean] at hwalk
    obtain ⟨us, hw, hts⟩ := exists_walk_withReturns hwalk ho
    refine parse_of_walks h (by rwa [hlist, hstart]) ?_ hts
    rw [Cursor.withReturns, hend]
    rfl

def describedTimeline : Diagram :=
  .timeline
    { sections := [⟨none, [⟨"2021", ["x"]⟩]⟩]
      annotations := { accDescr := some "one year,\n\none event" } }

theorem parse_withReturns_described :
    timeline.parse "timeline\naccDescr \x7b\none year,\n\n one event\n\x7d\n2021 : x" =
        .ok describedTimeline ∧
      timeline.parse
          "timeline\r\naccDescr \x7b\r\none year,\r\n\r\n one event\r\n\x7d\r\n2021 : x" =
        .ok describedTimeline := by
  have h : timeline.parse
      "timeline\naccDescr \x7b\none year,\n\n one event\n\x7d\n2021 : x" =
        .ok describedTimeline := parse_eq_ok_of_toOption (by decide +kernel)
  have h' := (parse_withReturns (by decide) (by simp)).2 h
  refine ⟨h, Eq.trans (congrArg _ ?_) h'⟩
  decide +kernel

end Kind

end DiagramText
