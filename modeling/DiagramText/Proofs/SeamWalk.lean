import DiagramText.Proofs.AlikeTrees
import DiagramText.Proofs.LineEnds
import DiagramText.Proofs.Lossless
import DiagramText.Proofs.SeamStep

namespace DiagramText

namespace Lexicon

variable {l : Lexicon} {c c' : Cursor} {ts : List Token} {es : List Diagnostic}

theorem Walks.suffix (h : Walks l c ts es c') : c'.after <:+ c.after := by
  induction h with
  | done c => exact List.suffix_refl _
  | skip hm _ _ ih | take hm _ _ ih => exact ih.trans ⟨_, (after_eq_of_match? hm).1.symm⟩
  | @giveUp c _ ch cs _ _ _ ha _ ih =>
    exact ih.trans ⟨_, (l.unmatched_append c.before ch cs).trans ha.symm⟩

theorem not_suffix_of_match? {m : Match} (hm : l.match? c = some m) : ¬ c.after <:+ m.rest :=
  fun h ↦ Nat.not_le.2 (length_rest_lt_of_match? hm) h.length_le

theorem Walks.eq_nil (h : Walks l c ts [] c') (ha : c'.after = c.after) : ts = [] := by
  generalize he : ([] : List Diagnostic) = es at h
  cases h with
  | done c => rfl
  | skip hm _ hw | take hm _ hw => exact absurd (ha ▸ hw.suffix) (not_suffix_of_match? hm)
  | giveUp => cases he

theorem Walks.exists_match {t : Token} (h : Walks l c ts [] c') (ht : t ∈ ts) :
    ∃ c₁ m ts₁ ts₂, l.match? c₁ = some m ∧ m.kind.isHidden = false ∧
      t = token m.kind c₁ m.text ∧ ts = ts₁ ++ t :: ts₂ ∧ Walks l c ts₁ [] c₁ ∧
      Walks l (c₁.past m.text m.rest) ts₂ [] c' := by
  generalize he : ([] : List Diagnostic) = es at h
  induction h with
  | done c => cases ht
  | skip hm hh _ ih =>
    obtain ⟨c₁, m₁, ts₁, ts₂, hm₁, hh₁, htok, hts, h₁, h₂⟩ := ih ht he
    subst he
    exact ⟨c₁, m₁, ts₁, ts₂, hm₁, hh₁, htok, hts, .skip hm hh h₁, h₂⟩
  | @take c c' m ts es hm hh hw ih =>
    subst he
    rcases List.mem_cons.1 ht with rfl | ht
    · exact ⟨c, m, [], ts, hm, hh, rfl, rfl, .done c, hw⟩
    · obtain ⟨c₁, m₁, ts₁, ts₂, hm₁, hh₁, htok, hts, h₁, h₂⟩ := ih ht rfl
      exact ⟨c₁, m₁, _ :: ts₁, ts₂, hm₁, hh₁, htok, congrArg _ hts, .take hm hh h₁, h₂⟩
  | giveUp => cases he

end Lexicon

namespace Kind

variable {k : Kind} {c c' d : Cursor} {ts : List Token}

theorem exists_walk_of_after (h : k.grammar.lexicon.Walks c ts [] c') (ha : d.after = c.after)
    (hc : c.Begun) (hd : d.Begun) :
    ∃ us d', k.grammar.lexicon.Walks d us [] d' ∧ TokensAlike ts us ∧ d'.after = c'.after := by
  generalize he : ([] : List Diagnostic) = es at h
  have hmatch {c d : Cursor} {m : Match} (hm : k.grammar.lexicon.match? c = some m)
      (ha : d.after = c.after) (hc : c.Begun) (hd : d.Begun) :
      k.grammar.lexicon.match? d = some m := by
    rw [match?_eq_of_begun hd, ha, ← match?_eq_of_begun hc, hm]
  induction h generalizing d with
  | done c => exact ⟨[], d, .done d, .nil, ha⟩
  | @skip c c' m ts es hm hh _ ih =>
    obtain ⟨us, d', hw, hts, hd'⟩ :=
      ih (d := d.past m.text m.rest) rfl (hc.past _ _) (hd.past _ _) he
    subst he
    exact ⟨us, d', .skip (hmatch hm ha hc hd) hh hw, hts, hd'⟩
  | @take c c' m ts es hm hh _ ih =>
    obtain ⟨us, d', hw, hts, hd'⟩ :=
      ih (d := d.past m.text m.rest) rfl (hc.past _ _) (hd.past _ _) he
    subst he
    exact ⟨_, d', .take (hmatch hm ha hc hd) hh hw, .cons ⟨rfl, .inl rfl⟩ hts, hd'⟩
  | giveUp => cases he

end Kind

namespace Seam

variable {S : Seam} {k : Kind} {c c₁ d : Cursor} {ts : List Token} {m m' : Match} {cs : List Char}

/-- The cursor stands at the seam: before or after the blank, or beyond a comment there. -/
def Beside (S : Seam) (d : Cursor) : Prop :=
  d.after = S.whole ∨ d.after = S.new ∨ d.after = S.afterLine

theorem Beside.suffix (h : S.Beside d) : d.after <:+ S.whole := by
  rcases h with h | h | h
  · exact h ▸ List.suffix_refl _
  · exact h ▸ List.suffix_append _ _
  · exact h ▸ List.dropWhile_suffix _

/-- From the cursor, a walk in the new text meets tokens like these up to the seam. -/
def Reaches (S : Seam) (k : Kind) (ts : List Token) (d : Cursor) : Prop :=
  ∃ us d', k.grammar.lexicon.Walks d us [] d' ∧ TokensAlike ts us ∧ S.Beside d'

theorem Onward.reaches (h : S.Onward m m')
    (hw : k.grammar.lexicon.Walks (c.past m.text m.rest) ts [] c₁) (h₁ : c₁.after = S.old)
    (ih : ∀ cs', m.rest = cs' ++ S.old →
      S.Reaches k ts ⟨m.text.reverse ++ c.before, cs' ++ S.whole⟩) :
    S.Reaches k ts ((⟨c.before, cs ++ S.whole⟩ : Cursor).past m'.text m'.rest) := by
  have hend (ho : m.rest = S.old) : ts = [] := hw.eq_nil (h₁.trans ho.symm)
  rcases h with ⟨-, ⟨ht, cs', hx, hy⟩ | ⟨-, -, hx, hy⟩⟩ | ⟨-, -, hx, hy⟩
  · have hy : m'.rest = cs' ++ S.whole := hy
    have ht : m'.text = m.text := ht
    rw [Cursor.past, ht, hy]
    exact ih cs' hx
  · exact ⟨[], _, .done _, hend hx ▸ .nil, .inr (.inl hy)⟩
  · exact ⟨[], _, .done _, hend hx ▸ .nil, .inr (.inr hy)⟩

theorem Onward.alike (h : S.Onward m m') (hh : m.kind.isHidden = false) :
    m'.kind.isHidden = false ∧
      (Lexicon.token m.kind c m.text).Alike (Lexicon.token m'.kind d m'.text) := by
  rcases h with ⟨hk, hf⟩ | ⟨hm, -⟩
  · refine ⟨hk ▸ hh, hk, ?_⟩
    rcases hf with ⟨ht, -⟩ | ⟨hp, ht, -⟩
    · exact .inl (congrArg String.ofList ht)
    · rcases S.put_in with ⟨hb, -⟩ | ⟨hb, -⟩
      · have ht : m'.text = m.text := by simpa [hb] using ht
        exact .inl (congrArg String.ofList ht)
      · rw [hb] at ht
        refine .inr (.inl ⟨by simpa [Lexicon.token] using hp, ?_⟩)
        simpa [Lexicon.token] using ht
  · rw [hm] at hh
    cases hh

theorem exists_onward_of_walks (hm : k.grammar.lexicon.match? c = some m)
    (hw : k.grammar.lexicon.Walks (c.past m.text m.rest) ts [] c₁) (hc : c.after = cs ++ S.old)
    (h₁ : c₁.after = S.old) (hclear : c₁.Clear) :
    ∃ m', k.grammar.lexicon.match? ⟨c.before, cs ++ S.whole⟩ = some m' ∧ S.Onward m m' := by
  obtain ⟨rest, hr⟩ := hw.suffix
  have hcs : cs ≠ [] := by
    rintro rfl
    refine Lexicon.not_suffix_of_match? hm ?_
    rw [hc, List.nil_append, ← h₁]
    exact ⟨rest, hr⟩
  have hbefore : c₁.before.reverse = c.before.reverse ++ cs := by
    have htext := hw.text_eq.trans (Lexicon.text_past_of_match? hm)
    rw [Cursor.text, Cursor.text, h₁, hc, ← List.append_assoc] at htext
    exact List.append_cancel_right htext
  -- what stands right before the seam is the same at every cursor on the way
  have hcl : S.Clear cs := by
    intro hl
    have hlast : c₁.before.head? = some '\r' := by
      rw [← List.getLast?_reverse, hbefore, List.getLast?_append, hl]
      rfl
    exact h₁ ▸ hclear hlast
  have hrest : m.rest = rest ++ S.old := h₁ ▸ hr.symm
  obtain ⟨before, after⟩ := c
  obtain rfl : after = cs ++ S.old := hc
  exact S.exists_onward k hcs hcl hm hrest

/-- A walk in the old text up to the seam has one in the new text beside it. -/
theorem reaches_of_walks (h : k.grammar.lexicon.Walks c ts [] c₁) (hc : c.after = cs ++ S.old)
    (h₁ : c₁.after = S.old) (hclear : c₁.Clear) : S.Reaches k ts ⟨c.before, cs ++ S.whole⟩ := by
  generalize he : ([] : List Diagnostic) = es at h
  induction h generalizing cs with
  | done c =>
    obtain rfl : cs = [] := List.append_left_eq_self.1 (hc.symm.trans h₁)
    exact ⟨[], _, .done _, .nil, .inl rfl⟩
  | @skip c c₁ m ts es hm hh hw ih =>
    subst he
    obtain ⟨m', hm', ho⟩ := exists_onward_of_walks hm hw hc h₁ hclear
    obtain ⟨us, d, hwd, hts, hd⟩ := ho.reaches hw h₁ fun cs' hr ↦ ih hr h₁ hclear rfl
    have hh' : m'.kind.isHidden = true := by
      rcases ho with ⟨hk, -⟩ | ⟨-, hh', -⟩
      · rw [hk, hh]
      · exact hh'
    exact ⟨us, d, .skip hm' hh' hwd, hts, hd⟩
  | @take c c₁ m ts es hm hh hw ih =>
    subst he
    obtain ⟨m', hm', ho⟩ := exists_onward_of_walks hm hw hc h₁ hclear
    obtain ⟨us, d, hwd, hts, hd⟩ := ho.reaches hw h₁ fun cs' hr ↦ ih hr h₁ hclear rfl
    obtain ⟨hh', hal⟩ := ho.alike hh
    exact ⟨_, d, .take hm' hh' hwd, .cons hal hts, hd⟩
  | giveUp => cases he

end Seam

end DiagramText
