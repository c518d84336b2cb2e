import DiagramText.Proofs.Rules
import DiagramText.Proofs.Walk
import Mathlib.Data.List.TakeWhile

namespace DiagramText

open Text (isBlank isBreak)

namespace Pattern

variable {p q : Pattern}

def EndsClear (p : Pattern) : Prop :=
  ∀ cs taken rest, p cs = some (taken, rest) → taken.getLast? ≠ some '\r'

theorem endsClear_literal {mark : List Char} (h : mark.getLast? ≠ some '\r') :
    EndsClear (literal mark) := by
  intro cs taken rest hp
  obtain ⟨rfl, -⟩ := literal_eq_some_iff.1 hp
  exact h

theorem endsClear_many {c : Char → Bool} (h : c '\r' = false) : EndsClear (many c) := by
  intro cs taken rest hp hl
  obtain ⟨rfl, -⟩ := many_eq_some_iff.1 hp
  have := List.mem_takeWhile_imp (List.mem_of_getLast? hl)
  rw [h] at this
  cases this

theorem endsClear_many1 {c : Char → Bool} (h : c '\r' = false) : EndsClear (many1 c) := by
  intro cs taken rest hp
  unfold many1 at hp
  split at hp
  · cases hp
  · exact endsClear_many h cs taken rest hp

theorem endsClear_one {c : Char → Bool} (h : c '\r' = false) : EndsClear (one c) := by
  intro cs taken rest hp
  obtain _ | ⟨a, cs⟩ := cs
  · cases hp
  · obtain ⟨ha, he⟩ := Option.ite_none_right_eq_some.1 hp
    obtain ⟨rfl, -⟩ := Prod.mk.inj (Option.some.inj he)
    intro hl
    obtain rfl : a = '\r' := by simpa using hl
    rw [h] at ha
    cases ha

theorem endsClear_through {mark : List Char} (hn : mark ≠ []) (h : mark.getLast? ≠ some '\r') :
    EndsClear (through mark) := by
  intro cs taken rest hp
  obtain ⟨before, -, rfl⟩ := through_eq_some_iff.1 hp
  rwa [List.getLast?_append_of_ne_nil _ hn]

theorem EndsClear.seq (hp : EndsClear p) (hq : EndsClear q) : EndsClear (p.seq q) := by
  intro cs taken rest h
  obtain ⟨a, mid, b, ha, hb, rfl⟩ := seq_eq_some_iff.1 h
  by_cases hn : b = []
  · rw [hn, List.append_nil]
    exact hp cs a mid ha
  · rw [List.getLast?_append_of_ne_nil _ hn]
    exact hq mid b rest hb

theorem EndsClear.after (hq : EndsClear q) (hn : ∀ cs rest, q cs ≠ some ([], rest)) :
    EndsClear (p.seq q) := by
  intro cs taken rest h
  obtain ⟨a, mid, b, ha, hb, rfl⟩ := seq_eq_some_iff.1 h
  have hne : b ≠ [] := by
    rintro rfl
    exact hn mid rest hb
  rw [List.getLast?_append_of_ne_nil _ hne]
  exact hq mid b rest hb

theorem EndsClear.alt (hp : EndsClear p) (hq : EndsClear q) : EndsClear (p.alt q) := by
  intro cs taken rest h
  unfold Pattern.alt at h
  split at h
  · rename_i r hr
    exact hp cs taken rest (hr.trans h)
  · exact hq cs taken rest h

theorem EndsClear.optional (hp : EndsClear p) : EndsClear p.optional := by
  intro cs taken rest h
  unfold Pattern.optional at h
  cases hc : p cs with
  | none =>
    rw [hc] at h
    obtain ⟨rfl, -⟩ := Prod.mk.inj (Option.some.inj h)
    simp
  | some r =>
    rw [hc] at h
    obtain rfl := Option.some.inj h
    exact hp cs taken rest hc

theorem EndsClear.filter (hp : EndsClear p) (ok : List Char × List Char → Bool) :
    EndsClear fun cs ↦ (p cs).filter ok :=
  fun cs taken rest h ↦ hp cs taken rest (Option.filter_eq_some_iff.1 h).1

theorem endsClear_freeText (stops : List Char) : EndsClear (freeText stops) := by
  intro cs taken rest h hl
  have hmem := List.mem_of_getLast? hl
  clear hl
  induction cs generalizing taken with
  | nil =>
    obtain ⟨rfl, -⟩ := Prod.mk.inj (Option.some.inj h)
    cases hmem
  | cons c cs ih =>
    unfold freeText at h
    split at h
    · obtain ⟨rfl, -⟩ := Prod.mk.inj (Option.some.inj h)
      cases hmem
    · rename_i hc
      obtain ⟨m, hm, he⟩ := Option.map_eq_some_iff.1 h
      obtain ⟨rfl, rfl⟩ := Prod.mk.inj he
      rcases List.mem_cons.1 hmem with rfl | hmem
      · exact hc (by simp [isBreak])
      · exact ih m.1 hm hmem

theorem endsClear_quotedRest : EndsClear quotedRest := by
  intro cs
  fun_induction quotedRest cs with
  | case1 cs ih =>
    intro taken rest h
    obtain ⟨m, hm, he⟩ := Option.map_eq_some_iff.1 h
    obtain ⟨rfl, rfl⟩ := Prod.mk.inj he
    have hlast := List.getLast?_append_of_ne_nil ['"', '"'] (quotedRest_ne_nil hm)
    exact fun hl ↦ ih m.1 m.2 hm (hlast.symm.trans hl)
  | case2 cs =>
    intro taken rest h
    obtain ⟨rfl, -⟩ := Prod.mk.inj (Option.some.inj h)
    simp
  | case3 c cs _ _ ih =>
    intro taken rest h
    obtain ⟨m, hm, he⟩ := Option.map_eq_some_iff.1 h
    obtain ⟨rfl, rfl⟩ := Prod.mk.inj he
    have hlast := List.getLast?_append_of_ne_nil [c] (quotedRest_ne_nil hm)
    exact fun hl ↦ ih m.1 m.2 hm (hlast.symm.trans hl)
  | case4 => intro taken rest h; cases h

theorem blanks_clear {cs taken rest : List Char} (h : blanks cs = some (taken, rest))
    (hl : taken.getLast? = some '\r') : rest.head? ≠ some '\n' := by
  induction cs generalizing taken with
  | nil =>
    obtain ⟨rfl, -⟩ := Prod.mk.inj (Option.some.inj h)
    cases hl
  | cons c cs ih =>
    unfold blanks at h
    split at h
    · rename_i hc
      obtain ⟨m, hm, he⟩ := Option.map_eq_some_iff.1 h
      obtain ⟨rfl, rfl⟩ := Prod.mk.inj he
      by_cases hn : m.1 = []
      · obtain rfl : cs = m.2 := by simpa [hn] using splits_blanks _ _ _ hm
        obtain rfl : c = '\r' := by simpa [hn] using hl
        simpa [isSpace] using hc
      · exact ih hm ((List.getLast?_append_of_ne_nil [c] hn).symm.trans hl)
    · obtain ⟨rfl, -⟩ := Prod.mk.inj (Option.some.inj h)
      cases hl

theorem endsClear_labelled {word : List Char} (h : word.getLast? ≠ some '\r') :
    EndsClear (labelled word) :=
  (endsClear_literal h).seq ((endsClear_many (by decide)).seq
    ((endsClear_literal (by decide)).seq (endsClear_freeText _)))

theorem endsClear_through_one {c : Char} (h : c ≠ '\r') : EndsClear (through [c]) :=
  endsClear_through (by simp) (by simpa using h)

theorem endsClear_accDescr : EndsClear accDescr := by
  have hclose : EndsClear ((literal ['\x7b']).seq (through ['\x7d'])) :=
    (endsClear_literal (by decide)).seq (endsClear_through_one (by decide))
  have hblock : EndsClear ((many isBlank).seq ((literal ['\x7b']).seq (through ['\x7d']))) := by
    refine hclose.after fun cs rest h ↦ ?_
    obtain ⟨_, _, _, hl, -, ht⟩ := seq_eq_some_iff.1 h
    obtain ⟨rfl, -⟩ := literal_eq_some_iff.1 hl
    cases ht
  exact (endsClear_labelled (by decide)).alt ((endsClear_literal (by decide)).seq hblock)

theorem endsClear_digits : EndsClear digits :=
  (endsClear_many1 (by decide)).seq
    ((endsClear_literal (by decide)).seq (endsClear_many1 (by decide))).optional

theorem endsClear_quoted {q : Char} (hq : q ≠ '\r') : EndsClear (quoted q) := by
  have hmark : [q].getLast? ≠ some '\r' := by simpa using hq
  exact (endsClear_literal hmark).seq
    ((endsClear_many (by simp [isBreak])).seq (endsClear_literal hmark))

theorem endsClear_sankeyNode : EndsClear sankeyNode := by
  have hfield : EndsClear quotedField :=
    ((endsClear_literal (by decide)).seq endsClear_quotedRest).filter _
  intro cs taken rest h
  unfold sankeyNode at h
  split at h
  · exact hfield cs taken rest h
  · exact ((endsClear_freeText _).filter _) cs taken rest h

theorem endsClear_enclosed {opening closing : List Char} {inner : Char → Bool}
    (ho : opening.getLast? ≠ some '\r') (hi : inner '\r' = false)
    (hc : closing.getLast? ≠ some '\r') : EndsClear (enclosed opening inner closing) :=
  (endsClear_literal ho).seq ((endsClear_many1 hi).seq (endsClear_literal hc))

end Pattern

namespace Shape

theorem endsClear_keyword (w : Keyword) : (keyword w).pattern.EndsClear := by
  refine (Pattern.endsClear_literal ?_).filter _
  cases w <;> decide

theorem endsClear_symbol (s : Symbol) : (symbol s).pattern.EndsClear := by
  refine Pattern.endsClear_literal ?_
  cases s <;> decide

theorem endsClear_annotations : ∀ s ∈ annotations, s.pattern.EndsClear := by
  simp only [annotations, List.forall_mem_cons]
  refine ⟨Pattern.endsClear_accDescr, Pattern.endsClear_labelled (by decide), ?_, by simp⟩
  exact ((Pattern.endsClear_literal (by decide)).filter _).seq (Pattern.endsClear_freeText _)

end Shape

theorem Kind.endsClear_shapes (k : Kind) : ∀ s ∈ k.shapes, s.pattern.EndsClear := by
  have hk := Shape.endsClear_keyword
  have hs := Shape.endsClear_symbol
  have ha := Shape.endsClear_annotations
  have hn : Pattern.number.EndsClear := Pattern.endsClear_digits.filter _
  have hq : Pattern.string.EndsClear :=
    (Pattern.endsClear_quoted (by decide)).alt (Pattern.endsClear_quoted (by decide))
  have hf {stops : List Char} : (Pattern.freeText stops).nonempty.EndsClear :=
    (Pattern.endsClear_freeText stops).filter _
  cases k with
  | info =>
    simp only [shapes, List.forall_mem_append, List.forall_mem_cons]
    exact ⟨⟨hk _, hk _, by simp⟩, ha⟩
  | pie =>
    simp only [shapes, List.forall_mem_append, List.forall_mem_cons]
    exact ⟨⟨⟨hk _, hk _, by simp⟩, ha⟩, hn, hq, hs _, by simp⟩
  | packet =>
    simp only [shapes, List.forall_mem_append, List.forall_mem_cons]
    exact ⟨⟨⟨hk _, hk _, by simp⟩, ha⟩, hn, hq, hs _, hs _, hs _, by simp⟩
  | sankey =>
    simp only [shapes, List.forall_mem_append, List.forall_mem_cons]
    have hv : Pattern.sankeyValue.EndsClear := by
      have hquote : Pattern.EndsClear (Pattern.literal ['"']) := Pattern.endsClear_literal (by decide)
      exact (Pattern.endsClear_digits.alt
        (hquote.seq (Pattern.endsClear_digits.seq hquote))).filter _
    exact ⟨⟨⟨hk _, hk _, by simp⟩, ha⟩, hv, Pattern.endsClear_sankeyNode, hs _, by simp⟩
  | timeline =>
    simp only [shapes, List.forall_mem_append, List.forall_mem_cons]
    have htitle : Pattern.sectionTitle.EndsClear :=
      (Pattern.endsClear_literal (by decide)).seq
        ((Pattern.endsClear_many1 (by decide)).seq hf)
    have hevent : Pattern.periodEvent.EndsClear :=
      (Pattern.endsClear_literal (by decide)).seq ((Pattern.endsClear_many (by decide)).seq hf)
    exact ⟨⟨⟨hk _, by simp⟩, ha⟩, htitle, hk _, hevent, hf, by simp⟩
  | architecture =>
    simp only [shapes, List.forall_mem_append, List.forall_mem_cons]
    have hid : Pattern.identifier.EndsClear :=
      (Pattern.endsClear_one (by decide)).seq (Pattern.endsClear_many (by decide))
    exact ⟨⟨⟨hk _, hk _, hk _, hk _, hk _, hk _, by simp⟩, ha⟩,
      Pattern.endsClear_enclosed (by decide) (by decide) (by decide),
      Pattern.endsClear_enclosed (by decide) (by decide) (by decide),
      Pattern.endsClear_enclosed (by decide) (by decide) (by decide), hid,
      hs _, hs _, hs _, hs _, hs _, hs _, by simp⟩

theorem Pattern.endsClear_directive : directive.EndsClear :=
  (endsClear_literal (by decide)).seq (endsClear_through (by simp) (by decide))

theorem Pattern.endsClear_blockComment : blockComment.EndsClear :=
  (endsClear_many (by decide)).seq
    ((endsClear_literal (by decide)).seq (endsClear_through (by simp) (by decide)))

theorem Pattern.endsClear_lineComment : lineComment.EndsClear :=
  (endsClear_many (by decide)).seq ((endsClear_literal (by decide)).seq (endsClear_many (by decide)))

theorem Pattern.endsClear_lineEnd : lineEnd.EndsClear :=
  (endsClear_literal (by decide)).alt (endsClear_literal (by decide))

/-- No match of a grammar ends between a carriage return and a line feed. -/
theorem Kind.clear_of_match? {k : Kind} {c : Cursor} {m : Match}
    (h : k.grammar.lexicon.match? c = some m) (hl : m.text.getLast? = some '\r') :
    m.rest.head? ≠ some '\n' := by
  rw [k.match?_eq_first?] at h
  obtain ⟨s, hs, hm⟩ := List.exists_of_findSome?_eq_some h
  obtain ⟨-, hp, -⟩ := Shape.match?_eq_some_iff.1 hm
  have hclear {p : Pattern} (hc : p.EndsClear) (hp : p c.after = some (m.text, m.rest)) :
      m.rest.head? ≠ some '\n' := absurd hl (hc _ _ _ hp)
  have hall : ∀ s ∈ Shape.base ++ k.shapes, s.pattern c.after = some (m.text, m.rest) →
      m.rest.head? ≠ some '\n' := by
    simp only [Shape.base, List.cons_append, List.nil_append, List.forall_mem_cons]
    refine ⟨hclear Pattern.endsClear_blockComment, hclear Pattern.endsClear_lineComment, ?_,
      hclear Pattern.endsClear_lineEnd, fun s hs ↦ hclear (k.endsClear_shapes s hs)⟩
    exact fun hp ↦ Pattern.blanks_clear (Option.filter_eq_some_iff.1 hp).1 hl
  unfold tried at hs
  split at hs
  · rcases List.mem_cons.1 hs with rfl | hs
    · exact hclear Pattern.endsClear_directive hp
    · exact hall s hs hp
  · exact hall s hs hp

def Cursor.Clear (c : Cursor) : Prop :=
  c.before.head? = some '\r' → c.after.head? ≠ some '\n'

theorem Kind.clear_of_walks {k : Kind} {c c' : Cursor} {ts : List Token}
    (h : k.grammar.lexicon.Walks c ts [] c') (hc : c.Clear) : c'.Clear := by
  have hpast {c : Cursor} {m : Match} (hm : k.grammar.lexicon.match? c = some m) :
      (c.past m.text m.rest).Clear := by
    intro hl
    refine k.clear_of_match? hm ?_
    have hn : m.text.reverse ≠ [] := by simpa using (Lexicon.after_eq_of_match? hm).2
    obtain ⟨d, ds, hd⟩ := List.exists_cons_of_ne_nil hn
    rw [← List.head?_reverse, hd]
    rw [Cursor.past, hd] at hl
    exact hl
  generalize he : ([] : List Diagnostic) = es at h
  induction h with
  | done c => exact hc
  | skip hm _ _ ih | take hm _ _ ih => exact ih (hpast hm) he
  | giveUp => cases he

end DiagramText
