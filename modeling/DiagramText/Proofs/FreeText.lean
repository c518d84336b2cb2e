import DiagramText.Proofs.Descriptions
import DiagramText.Proofs.Detection
import DiagramText.Proofs.UnmatchedRuns

namespace DiagramText

open Pattern (IsFree commentMark isSpace)
open Text (isBreak)

namespace Pattern

variable {c : Char} {cs pre taken rest stops : List Char}

/-- Free text goes no further: a line break or a stop stands here, or a comment begins. -/
def Halts (stops cs : List Char) : Prop :=
  (∃ c ∈ cs.head?, isBreak c = true ∨ c ∈ stops) ∨ commentMark <+: cs

theorem halts_cons_iff : Halts stops (c :: cs) ↔
    (isBreak c || stops.contains c || Text.startsWith commentMark (c :: cs)) = true := by
  have hmark : commentMark <+: c :: cs ↔ Text.startsWith commentMark (c :: cs) = true := by
    rw [Text.startsWith_eq_true_iff]
    exact exists_congr fun _ ↦ eq_comm
  simp [Halts, hmark]

theorem clear_of_not_halts (h : ¬Halts stops (c :: cs)) : isBreak c = false ∧ c ∉ stops :=
  ⟨Bool.eq_false_iff.2 fun hb ↦ h (.inl ⟨c, rfl, .inl hb⟩), fun hc ↦ h (.inl ⟨c, rfl, .inr hc⟩)⟩

theorem IsFree.cons (h : IsFree stops cs) (hc : ¬Halts stops (c :: cs)) :
    IsFree stops (c :: cs) := by
  refine ⟨List.forall_mem_cons.2 ⟨clear_of_not_halts hc, h.1⟩, fun hm ↦ ?_⟩
  rcases List.infix_cons_iff.1 hm with hm | hm
  · exact hc (.inr hm)
  · exact h.2 hm

theorem IsFree.of_stops (h : IsFree stops cs) : IsFree [] cs :=
  ⟨fun c hc ↦ ⟨(h.1 c hc).1, List.not_mem_nil⟩, h.2⟩

def isInert (stops : List Char) (c : Char) : Bool :=
  !(isBreak c || stops.contains c || c = '%')

theorem not_halts_of_inert (h : isInert stops c = true) (cs : List Char) :
    ¬Halts stops (c :: cs) := by
  simp only [isInert, Bool.not_eq_true', Bool.or_eq_false_iff, decide_eq_false_iff_not] at h
  obtain ⟨⟨hbreak, hstop⟩, hmark⟩ := h
  rw [halts_cons_iff, hbreak, hstop]
  simp [Text.startsWith, commentMark, Text.after?, Ne.symm hmark]

/-- What is taken goes on to the first place where free text goes no further, or to the end. -/
structure FreeRun (stops taken rest : List Char) : Prop where
  inside : ∀ a b, taken = a ++ b → b ≠ [] → ¬Halts stops (b ++ rest)
  ends : rest = [] ∨ Halts stops rest

namespace FreeRun

theorem nil (h : rest = [] ∨ Halts stops rest) : FreeRun stops [] rest := by
  refine ⟨fun a b hab hb ↦ ?_, h⟩
  exact absurd (List.append_eq_nil_iff.1 hab.symm).2 hb

theorem cons (hc : ¬Halts stops (c :: (taken ++ rest))) (h : FreeRun stops taken rest) :
    FreeRun stops (c :: taken) rest := by
  refine ⟨fun a b hab hb ↦ ?_, h.ends⟩
  cases a with
  | nil =>
    obtain rfl : c :: taken = b := hab
    exact hc
  | cons d a => exact h.inside a b (List.cons.inj hab).2 hb

theorem append (hp : pre.all (isInert stops) = true) (h : FreeRun stops taken rest) :
    FreeRun stops (pre ++ taken) rest := by
  induction pre with
  | nil => exact h
  | cons c pre ih =>
    rw [List.all_cons, Bool.and_eq_true] at hp
    obtain ⟨hc, hpre⟩ := hp
    exact (ih hpre).cons (not_halts_of_inert hc _)

theorem isFree (h : FreeRun stops taken rest) : IsFree stops taken := by
  refine ⟨fun c hc ↦ ?_, ?_⟩
  · obtain ⟨a, b, rfl⟩ := List.append_of_mem hc
    exact clear_of_not_halts (h.inside a (c :: b) rfl (List.cons_ne_nil c b))
  · rintro ⟨a, b, rfl⟩
    refine h.inside a (commentMark ++ b) (List.append_assoc a _ b) (by simp [commentMark]) ?_
    rw [List.append_assoc]
    exact .inr (List.prefix_append _ _)

end FreeRun

theorem freeRun_of_freeText (h : freeText stops cs = some (taken, rest)) :
    FreeRun stops taken rest := by
  induction cs generalizing taken with
  | nil =>
    obtain ⟨rfl, rfl⟩ := Prod.mk.inj (Option.some.inj h)
    exact .nil (.inl rfl)
  | cons c cs ih =>
    unfold freeText at h
    split at h
    · rename_i hc
      obtain ⟨rfl, rfl⟩ := Prod.mk.inj (Option.some.inj h)
      exact .nil (.inr (halts_cons_iff.2 hc))
    · -- The guard that lets the character by looks at all that follows, the rest included.
      rename_i hc
      obtain ⟨⟨t, r⟩, ht, he⟩ := Option.map_eq_some_iff.1 h
      obtain ⟨rfl, rfl⟩ := Prod.mk.inj he
      refine (ih ht).cons ?_
      rw [← splits_freeText stops cs t r ht, halts_cons_iff]
      exact hc

theorem inert_of_isSpace (hs : stops.any isSpace = false) (h : isSpace c = true) :
    isInert stops c = true := by
  have hstop : c ∉ stops := fun hc ↦ List.any_eq_false.1 hs c hc h
  simp only [isSpace, Bool.or_eq_true, decide_eq_true_eq] at h
  rcases h with rfl | rfl <;> simp [isInert, isBreak, hstop]

theorem FreeRun.spaces (h : FreeRun stops taken rest) (hs : stops.any isSpace = false)
    (cs : List Char) : FreeRun stops (cs.takeWhile isSpace ++ taken) rest :=
  h.append (List.all_eq_true.2 fun _ hc ↦ inert_of_isSpace hs (List.mem_takeWhile_imp hc))

theorem freeRun_title (h : title cs = some (taken, rest)) : FreeRun [] taken rest := by
  obtain ⟨_, _, _, hword, htext, rfl⟩ := seq_eq_some_iff.1 h
  obtain ⟨rfl, -⟩ := literal_eq_some_iff.1 (Option.filter_eq_some_iff.1 hword).1
  exact (freeRun_of_freeText htext).append (by decide)

theorem freeRun_labelled {word : List Char} (hw : word.all (isInert []) = true)
    (h : labelled word cs = some (taken, rest)) : FreeRun [] taken rest := by
  obtain ⟨_, _, _, hword, htail, rfl⟩ := seq_eq_some_iff.1 h
  obtain ⟨_, _, _, hspaces, hbody, rfl⟩ := seq_eq_some_iff.1 htail
  obtain ⟨_, _, _, hcolon, htext, rfl⟩ := seq_eq_some_iff.1 hbody
  obtain ⟨rfl, -⟩ := literal_eq_some_iff.1 hword
  obtain ⟨rfl, -⟩ := many_eq_some_iff.1 hspaces
  obtain ⟨rfl, -⟩ := literal_eq_some_iff.1 hcolon
  have hcolon : [':'].all (isInert []) = true := by decide
  exact (((freeRun_of_freeText htext).append hcolon).spaces rfl _).append hw

theorem freeRun_accDescr (h : accDescr cs = some (taken, rest))
    (hline : Reader.takesLine taken = true) : FreeRun [] taken rest := by
  obtain ⟨d, hd, hform⟩ := exists_description h
  rw [← hd, d.takesLine_written, hform] at hline
  obtain ⟨m, hm⟩ := Option.isSome_iff_exists.1 hline
  rw [accDescr, alt, hm] at h
  obtain rfl := Option.some.inj h
  exact freeRun_labelled (by decide) hm

theorem freeRun_nonempty (h : (freeText stops).nonempty cs = some (taken, rest)) :
    FreeRun stops taken rest :=
  freeRun_of_freeText (Option.filter_eq_some_iff.1 h).1

theorem freeRun_sectionTitle (h : sectionTitle cs = some (taken, rest)) :
    FreeRun [] taken rest := by
  obtain ⟨_, _, _, hword, htail, rfl⟩ := seq_eq_some_iff.1 h
  obtain ⟨_, _, _, hspaces, htext, rfl⟩ := seq_eq_some_iff.1 htail
  obtain ⟨rfl, -⟩ := literal_eq_some_iff.1 hword
  rw [← nonempty_many] at hspaces
  obtain ⟨rfl, -⟩ := many_eq_some_iff.1 (Option.filter_eq_some_iff.1 hspaces).1
  exact ((freeRun_nonempty htext).spaces rfl _).append (by decide)

theorem exists_freeRun_periodEvent (h : periodEvent cs = some (taken, rest)) :
    ∃ body, taken = [':'] ++ body ∧ FreeRun [':'] body rest := by
  obtain ⟨_, _, _, hcolon, htail, rfl⟩ := seq_eq_some_iff.1 h
  obtain ⟨_, _, _, hspaces, htext, rfl⟩ := seq_eq_some_iff.1 htail
  obtain ⟨rfl, -⟩ := literal_eq_some_iff.1 hcolon
  obtain ⟨rfl, -⟩ := many_eq_some_iff.1 hspaces
  exact ⟨_, rfl, (freeRun_nonempty htext).spaces (by decide) _⟩

theorem startsWith_of_quotedField (h : quotedField cs = some (taken, rest)) :
    Text.startsWith ['"'] taken = true := by
  obtain ⟨_, _, _, hquote, -, rfl⟩ := seq_eq_some_iff.1 (Option.filter_eq_some_iff.1 h).1
  obtain ⟨rfl, -⟩ := literal_eq_some_iff.1 hquote
  rfl

theorem freeRun_sankeyNode (h : sankeyNode cs = some (taken, rest))
    (hq : Text.startsWith ['"'] taken = false) : FreeRun [','] taken rest := by
  unfold sankeyNode at h
  split at h
  · rw [startsWith_of_quotedField h] at hq
    cases hq
  · exact freeRun_nonempty h

end Pattern

namespace Token.Kind

/-- What stands before the free text of a token. -/
def lead : Token.Kind → List Char
  | periodEvent => [':']
  | _ => []

theorem exists_append_of_lead (kind : Token.Kind) {a b body : List Char} (ha : a ≠ [])
    (h : kind.lead ++ body = a ++ b) : ∃ a', body = a' ++ b := by
  obtain ⟨c, a, rfl⟩ := List.exists_cons_of_ne_nil ha
  unfold lead at h
  split at h
  · exact ⟨a, (List.cons.inj h).2⟩
  · exact ⟨c :: a, h⟩

theorem isFree_lead_append (kind : Token.Kind) {stops body : List Char} (h : IsFree stops body) :
    IsFree [] (kind.lead ++ body) := by
  unfold lead
  split
  · exact h.of_stops.cons (Pattern.not_halts_of_inert (by decide) body)
  · exact h.of_stops

/-- The characters that end the text of a token, as a line end or a comment does. The text of a
description in braces and of a quoted name goes on otherwise. -/
def stops? (cs : List Char) : Token.Kind → Option (List Char)
  | title | accTitle | sectionTitle => some []
  | accDescr => if Reader.takesLine cs then some [] else none
  | periodTitle | periodEvent => some [':']
  | sankeyNode => if Text.startsWith ['"'] cs then none else some [',']
  | _ => none

end Token.Kind

namespace Kind

variable {k : Kind}

theorem exists_freeRun_of_match? {c : Cursor} {m : Match} {stops : List Char}
    (h : k.grammar.lexicon.match? c = some m) (hs : m.kind.stops? m.text = some stops) :
    ∃ body, m.text = m.kind.lead ++ body ∧ Pattern.FreeRun stops body m.rest := by
  obtain ⟨kind, text, rest⟩ := m
  cases kind with
  | title =>
    cases hs
    exact ⟨text, rfl, Pattern.freeRun_title (eq_of_match? h rfl)⟩
  | accTitle =>
    cases hs
    exact ⟨text, rfl, Pattern.freeRun_labelled (by decide) (eq_of_match? h rfl)⟩
  | sectionTitle =>
    cases hs
    exact ⟨text, rfl, Pattern.freeRun_sectionTitle (eq_of_match? h rfl)⟩
  | periodTitle =>
    cases hs
    exact ⟨text, rfl, Pattern.freeRun_nonempty (eq_of_match? h rfl)⟩
  | periodEvent =>
    cases hs
    exact Pattern.exists_freeRun_periodEvent (eq_of_match? h rfl)
  | accDescr =>
    obtain ⟨hline, ⟨⟩⟩ := Option.ite_none_right_eq_some.1 hs
    exact ⟨text, rfl, Pattern.freeRun_accDescr (eq_of_match? h rfl) hline⟩
  | sankeyNode =>
    obtain ⟨hquote, ⟨⟩⟩ := Option.ite_none_left_eq_some.1 hs
    exact ⟨text, rfl, Pattern.freeRun_sankeyNode (eq_of_match? h rfl) (Bool.not_eq_true _ ▸ hquote)⟩
  | _ => cases hs

/-- A title, a label or a name holds no line break, no comment mark and, past the colon before an
event, no stop of its kind. It goes on to the first place where there is one, or to the end of the
text. -/
theorem freeText_runsTo (k : Kind) (text : String) :
    ∀ t ∈ (k.grammar.lexicon.tokenize text.toList).tokens,
      ∀ stops ∈ t.kind.stops? t.text.toList,
        IsFree [] t.text.toList ∧
        (∃ body, t.text.toList = t.kind.lead ++ body ∧ IsFree stops body) ∧
        t.span.RunsTo text.toList fun c ↦ Pattern.Halts stops c.after := by
  intro t ht stops hstops
  obtain ⟨c', -, hw⟩ := k.grammar.lexicon.walks_scan (.start text.toList)
  have hvalid : t.kind ≠ .invalid := by
    intro he
    rw [he] at hstops
    cases hstops
  obtain ⟨c, m, hc, hm, rfl⟩ := hw.exists_matched ht hvalid
  obtain ⟨hafter, hn⟩ := Lexicon.after_eq_of_match? hm
  have htext : (Lexicon.token m.kind c m.text).text.toList = m.text := String.toList_ofList
  rw [htext] at hstops ⊢
  obtain ⟨body, hbody, hrun⟩ := exists_freeRun_of_match? hm hstops
  refine ⟨?_, ⟨body, hbody, hrun.isFree⟩, ?_⟩
  · rw [hbody]
    exact m.kind.isFree_lead_append hrun.isFree
  · have htext : c.text = text.toList := hc
    rw [← htext]
    refine c.runsTo hafter hn (fun a ch b ha hab ↦ ?_) hrun.ends
    -- A place inside the token is one of the free text, past what stands before it.
    obtain ⟨a', rfl⟩ := m.kind.exists_append_of_lead ha (hbody.symm.trans hab)
    exact hrun.inside a' (ch :: b) rfl (List.cons_ne_nil ch b)

/-- Halves of comment marks, before a colon and before a comment. -/
def percents : String :=
  "timeline\n5% up :\t100% %% 9"

theorem freeText_runsTo_percents :
    let period : Token := ⟨.periodTitle, "5% up ", ⟨9, 15⟩⟩
    let event : Token := ⟨.periodEvent, ":\t100% ", ⟨15, 22⟩⟩
    (period ∈ (timeline.grammar.lexicon.tokenize percents.toList).tokens ∧
      period.span.RunsTo percents.toList fun c ↦ Pattern.Halts [':'] c.after) ∧
    event ∈ (timeline.grammar.lexicon.tokenize percents.toList).tokens ∧
      IsFree [':'] "\t100% ".toList ∧
      event.span.RunsTo percents.toList fun c ↦ Pattern.Halts [':'] c.after := by
  intro period event
  have hperiod : period ∈ (timeline.grammar.lexicon.tokenize percents.toList).tokens := by
    decide +kernel
  have hevent : event ∈ (timeline.grammar.lexicon.tokenize percents.toList).tokens := by
    decide +kernel
  obtain ⟨-, -, hup⟩ := freeText_runsTo timeline percents period hperiod [':'] rfl
  obtain ⟨-, ⟨body, hbody, hfree⟩, hon⟩ := freeText_runsTo timeline percents event hevent [':'] rfl
  have htext : event.text.toList = [':'] ++ "\t100% ".toList := by decide +kernel
  obtain rfl : "\t100% ".toList = body := List.append_cancel_left (htext.symm.trans hbody)
  exact ⟨⟨hperiod, hup⟩, hevent, hfree, hon⟩

end Kind

end DiagramText
