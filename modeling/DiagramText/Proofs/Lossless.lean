import DiagramText.Grammar.OfKind
import DiagramText.Proofs.Walk

namespace DiagramText

open Text (byteSize)

/-- The token stands in the text at its span, whose ends are places between two characters. -/
def Token.StandsIn (t : Token) (text : List Char) : Prop :=
  ∃ before after, text = before ++ t.text.toList ++ after ∧
    t.span = ⟨byteSize before, byteSize before + byteSize t.text.toList⟩

theorem Cursor.eq_of_text_of_offset {c d : Cursor} (ht : c.text = d.text)
    (ho : c.offset = d.offset) : c = d :=
  Option.some.inj ((Cursor.at?_eq_some_iff.2 ⟨ht, ho⟩).symm.trans
    (Cursor.at?_eq_some_iff.2 ⟨rfl, rfl⟩))

namespace Lexicon

variable {l : Lexicon} {c c' : Cursor} {m : Match} {ts : List Token} {es : List Diagnostic}

def HiddenStep (l : Lexicon) (c c' : Cursor) : Prop :=
  ∃ m, l.match? c = some m ∧ m.kind.isHidden = true ∧ c' = c.past m.text m.rest

/-- Hidden matches, one after the other, cover the bytes of the text from `i` up to `j`. -/
def HiddenBetween (l : Lexicon) (text : List Char) (i j : Nat) : Prop :=
  ∃ c c', c.text = text ∧ c.offset = i ∧ c'.offset = j ∧ Relation.ReflTransGen (HiddenStep l) c c'

theorem token_standsIn (kind : Token.Kind) {text rest : List Char} (h : c.after = text ++ rest) :
    (token kind c text).StandsIn c.text := by
  refine ⟨c.before.reverse, rest, ?_, ?_⟩
  · simp [token, Cursor.text, h]
  · simp [token, Cursor.offset]

theorem start_lt_stop_token (kind : Token.Kind) {text : List Char} (h : text ≠ []) :
    (token kind c text).span.start < (token kind c text).span.stop := by
  have := Text.byteSize_pos h
  simp only [token]
  omega

theorem Walks.standsIn (h : Walks l c ts es c') :
    ∀ t ∈ ts, t.span.start < t.span.stop ∧ t.StandsIn c.text := by
  induction h with
  | done c => simp
  | skip hm _ _ ih => rwa [text_past_of_match? hm] at ih
  | @take c c' m ts es hm _ _ ih =>
    obtain ⟨he, hn⟩ := after_eq_of_match? hm
    rw [text_past_of_match? hm] at ih
    exact List.forall_mem_cons.2 ⟨⟨start_lt_stop_token m.kind hn, token_standsIn m.kind he⟩, ih⟩
  | @giveUp c c' ch cs ts es _ ha _ ih =>
    have he := ha.trans (l.unmatched_append c.before ch cs).symm
    rw [text_pastUnmatched ha] at ih
    exact List.forall_mem_cons.2
      ⟨⟨start_lt_stop_token .invalid (l.unmatched_ne_nil c.before ch cs),
        token_standsIn .invalid he⟩, ih⟩

theorem Walks.offset_le (h : Walks l c ts es c') : ∀ t ∈ ts, c.offset ≤ t.span.start := by
  induction h with
  | done c => simp
  | skip _ _ _ ih =>
    intro t ht
    have := ih t ht
    rw [Cursor.offset_past] at this
    omega
  | take _ _ _ ih | giveUp _ _ _ ih =>
    refine List.forall_mem_cons.2 ⟨Nat.le_refl _, fun t ht ↦ ?_⟩
    have := ih t ht
    simp only [pastUnmatched, Cursor.offset_past] at this
    omega

theorem Walks.pairwise (h : Walks l c ts es c') :
    ts.Pairwise fun a b ↦ a.span.stop ≤ b.span.start := by
  induction h with
  | done c => exact .nil
  | skip _ _ _ ih => exact ih
  | take _ _ hw ih | giveUp _ _ hw ih =>
    refine List.pairwise_cons.2 ⟨fun t ht ↦ ?_, ih⟩
    have := hw.offset_le t ht
    simp only [pastUnmatched, Cursor.offset_past] at this
    exact this

theorem HiddenBetween.refl (l : Lexicon) (c : Cursor) :
    HiddenBetween l c.text c.offset c.offset :=
  ⟨c, c, rfl, rfl, rfl, .refl⟩

theorem HiddenBetween.head (hm : l.match? c = some m) (hk : m.kind.isHidden = true) {j : Nat}
    (h : HiddenBetween l c.text (c.past m.text m.rest).offset j) :
    HiddenBetween l c.text c.offset j := by
  obtain ⟨d, d', ht, ho, hj, hr⟩ := h
  obtain rfl := Cursor.eq_of_text_of_offset (ht.trans (text_past_of_match? hm).symm) ho
  exact ⟨c, d', rfl, rfl, hj, hr.head ⟨m, hm, hk, rfl⟩⟩

theorem Walks.hiddenBetween (h : Walks l c ts es c') :
    List.Forall₂ (HiddenBetween l c.text) (c.offset :: ts.map (·.span.stop))
      (ts.map (·.span.start) ++ [c'.offset]) := by
  induction h with
  | done c => exact .cons (.refl l c) .nil
  | skip hm hk _ ih =>
    rw [text_past_of_match? hm] at ih
    obtain ⟨j, js, hj, hjs, he⟩ := List.forall₂_cons_left_iff.1 ih
    rw [he]
    exact .cons (hj.head hm hk) hjs
  | take hm _ _ ih =>
    rw [text_past_of_match? hm, Cursor.offset_past] at ih
    exact .cons (.refl l _) ih
  | giveUp _ ha _ ih =>
    rw [text_pastUnmatched ha, pastUnmatched, Cursor.offset_past] at ih
    exact .cons (.refl l _) ih

theorem Walks.errors_eq (hl : ∀ r ∈ l.rules, r.kind ≠ .invalid) (h : Walks l c ts es c') :
    es = (ts.filter (·.kind = .invalid)).map fun t ↦ (unmatchedFault t).diagnostic := by
  induction h with
  | done c => rfl
  | skip _ _ _ ih => exact ih
  | @take c c' m ts es hm _ _ ih =>
    obtain ⟨r, hr, hk⟩ := exists_rule_of_match? hm
    have hne : (token m.kind c m.text).kind ≠ .invalid := fun he ↦ hl r hr (hk.trans he)
    simpa [hne] using ih
  | @giveUp c c' ch cs ts es _ _ _ ih =>
    have hk : (l.unmatchedToken c ch cs).kind = .invalid := rfl
    rw [List.filter_cons_of_pos (by simp [hk]), List.map_cons, ← ih]

theorem primarySpan_unmatchedFault (t : Token) :
    (unmatchedFault t).diagnostic.primarySpan = some t.span := by
  unfold unmatchedFault
  split <;> rfl

theorem Walks.forall₂_errors (hl : ∀ r ∈ l.rules, r.kind ≠ .invalid) (h : Walks l c ts es c') :
    List.Forall₂ (fun t e ↦ e.primarySpan = some t.span) (ts.filter (·.kind = .invalid)) es := by
  rw [h.errors_eq hl, List.forall₂_map_right_iff]
  exact List.forall₂_same.2 fun t _ ↦ primarySpan_unmatchedFault t

/-- Tokens stand at their spans, in order and apart, each of at least one byte; hidden matches cover
all bytes before, between and after them; and where no rule yields invalid tokens, the invalid
tokens are those that the diagnostics mark, one for one. -/
theorem tokenize_lossless (l : Lexicon) (text : List Char) :
    (∀ t ∈ (l.tokenize text).tokens, t.span.start < t.span.stop ∧ t.StandsIn text) ∧
    (l.tokenize text).tokens.Pairwise (fun a b ↦ a.span.stop ≤ b.span.start) ∧
    List.Forall₂ (HiddenBetween l text) (0 :: (l.tokenize text).tokens.map (·.span.stop))
      ((l.tokenize text).tokens.map (·.span.start) ++ [byteSize text]) ∧
    ((∀ r ∈ l.rules, r.kind ≠ .invalid) →
      List.Forall₂ (fun t e ↦ e.primarySpan = some t.span)
        ((l.tokenize text).tokens.filter (·.kind = .invalid)) (l.tokenize text).errors) := by
  obtain ⟨c', he, hw⟩ := l.walks_scan (.start text)
  have ho : c'.offset = byteSize text := by
    have ht : c'.text = text := hw.text_eq
    rw [Cursor.text, he, List.append_nil] at ht
    rw [Cursor.offset, ← ht, Text.byteSize_reverse]
  exact ⟨hw.standsIn, hw.pairwise, ho ▸ hw.hiddenBetween, fun hl ↦ hw.forall₂_errors hl⟩

/-- Rules whose matchers answer with ends before the cursor, one byte and a hundred bytes on. -/
def unruly : Lexicon :=
  ⟨[⟨.identifier, fun c ↦ some (c.offset - 1)⟩, ⟨.number, fun c ↦ some (c.offset + 1)⟩,
    ⟨.whitespace, fun c ↦ some (c.offset + 100)⟩]⟩

theorem tokenize_lossless_unruly :
    (∀ r ∈ unruly.rules, r.kind ≠ .invalid) ∧
    ((unruly.tokenize "éaé".toList).tokens.filter (·.kind = .invalid)).map (·.span) =
      [⟨0, 2⟩, ⟨3, 5⟩] ∧
    List.Forall₂ (fun t e ↦ e.primarySpan = some t.span)
      ((unruly.tokenize "éaé".toList).tokens.filter (·.kind = .invalid))
      (unruly.tokenize "éaé".toList).errors :=
  ⟨by decide, by decide +kernel, (tokenize_lossless unruly "éaé".toList).2.2.2 (by decide)⟩

end Lexicon

end DiagramText
