import DiagramText.Proofs.Seam

namespace DiagramText

open Text (after? cut? isBlank isBreak startsWith)

namespace Pattern

variable {S : Seam}

theorem of_breaks {c : Char → Bool} (hn : c '\n' = false) (hr : c '\r' = false) :
    ∀ b, isBreak b = true → c b = false := by
  intro b hb
  simp only [isBreak, Bool.or_eq_true, decide_eq_true_eq] at hb
  rcases hb with rfl | rfl
  · exact hn
  · exact hr

theorem head?_any_eq {c : Char → Bool} (hs : c ' ' = false) (hn : c '\n' = false)
    (hr : c '\r' = false) {xs ys : List Char} (h : S.Ahead xs ys) :
    xs.head?.any c = ys.head?.any c := by
  obtain ⟨cs, rfl, rfl⟩ := h
  cases cs with
  | cons a cs => rfl
  | nil =>
    obtain ⟨b, bs, ho, hb⟩ := S.old_head
    obtain ⟨z, zs, hw, hz⟩ := S.whole_head
    have hcz : c z = false := by
      rcases hz with rfl | hz
      · exact hs
      · exact of_breaks hn hr z hz
    simp [ho, hw, of_breaks hn hr b hb, hcz]

theorem carries_keyword (w : Keyword) : Carries S.Ahead S.Ahead (keyword w.text.toList) := by
  refine (carries_literal_ahead ?_ ?_).whenRest fun xs ys h ↦ ?_
  · cases w <;> decide
  · cases w <;> decide
  · rw [head?_any_eq (by decide) (by decide) (by decide) h]

theorem carries_symbol (s : Symbol) : Carries S.Ahead S.Ahead (literal s.text.toList) := by
  refine carries_literal_ahead ?_ ?_
  · cases s <;> decide
  · cases s <;> decide

theorem carries_digits : Carries S.Ahead S.Ahead digits := by
  have hmany : Carries S.Ahead S.Ahead (many1 Char.isDigit) :=
    carries_many1 (by decide) (of_breaks (by decide) (by decide))
  exact hmany.seq ((carries_literal_ahead (by decide) (by decide)).seq hmany).optional

theorem carries_number : Carries S.Ahead S.Ahead number := by
  refine carries_digits.whenRest fun xs ys h ↦ ?_
  rw [head?_any_eq (by decide) (by decide) (by decide) h]

theorem carries_identifier : Carries S.Ahead S.Ahead identifier :=
  (carries_one (by decide) (of_breaks (by decide) (by decide))).seq
    (carries_many (by decide) (of_breaks (by decide) (by decide)))

theorem carries_archIcon : Carries S.Ahead S.Ahead archIcon :=
  (carries_literal_ahead (by decide) (by decide)).seq
    ((carries_many1 (by decide) (of_breaks (by decide) (by decide))).seq
      (carries_literal_ahead (by decide) (by decide)))

theorem carries_labelled {word : List Char} (hb : word.any isBreak = false)
    (hs : ' ' ∉ word) : Carries S.Ahead S.Meets (labelled word) := by
  have hcolon : Carries S.Meets S.Ahead (literal [':']) :=
    carries_literal (by simp) (by decide) (by decide) (by decide)
  have htext : Carries S.Meets S.Meets (freeText []) := carries_freeText (by simp)
  refine (carries_literal_ahead hb hs).seq (carries_many_isSpace.seq ?_)
  exact (hcolon.mono (fun _ _ ↦ Seam.Firm.meets) fun _ _ ↦ Seam.Ahead.meets).seq htext

theorem carries_title : Carries S.Ahead S.Meets title := by
  have htext : Carries S.Meets S.Meets (freeText []) := carries_freeText (by simp)
  have hword : Carries S.Ahead S.Ahead (literal "title".toList) :=
    carries_literal_ahead (by decide) (by decide)
  refine (hword.whenRest fun xs ys h ↦ ?_).seq (htext.mono (fun _ _ ↦ Seam.Ahead.meets) fun _ _ ↦ id)
  obtain ⟨cs, rfl, rfl⟩ := h
  obtain ⟨ho, hw⟩ := startsWith_commentMark S cs
  rw [ho, hw]
  cases cs with
  | cons c cs => rfl
  | nil =>
    obtain ⟨b, bs, ho, hb⟩ := S.old_head
    obtain ⟨z, zs, hw, rfl | hz⟩ := S.whole_head
    · simp [ho, hw, hb, isSpace]
    · simp [ho, hw, hb, hz]

theorem carries_sectionTitle : Carries S.Ahead S.Meets sectionTitle :=
  (carries_literal_ahead (by decide) (by decide)).seq (carries_spaced_freeText (by simp))

theorem carries_periodEvent : Carries S.Ahead S.Meets periodEvent :=
  (carries_literal_ahead (by decide) (by decide)).seq
    (carries_many_isSpace.seq (carries_freeText_nonempty (by decide)))

theorem carries_periodTitle : Carries S.Firm S.Meets periodTitle :=
  carries_freeText_nonempty (by decide)

theorem endsLine_eq {xs ys : List Char} (h : S.Ahead xs ys) : endsLine xs = endsLine ys := by
  obtain ⟨cs, rfl, rfl⟩ := h
  simp only [endsLine]
  rcases dropWhile_isSpace_firm cs with ⟨ds, hn, hx, hy⟩ | ⟨hx, hy⟩
  · obtain ⟨ho, hw⟩ := startsWith_commentMark S ds
    obtain ⟨d, ds, rfl⟩ := List.exists_cons_of_ne_nil hn
    rw [hx, hy, ho, hw]
    rfl
  · obtain ⟨b, bs, ho, hb⟩ := S.old_head
    rw [hx, hy]
    rcases S.put_in with ⟨-, b', cs, hnew, hb', -⟩ | ⟨-, cs, hnew⟩
    · simp [ho, hnew, hb, hb']
    · simp [ho, hnew, hb, startsWith, commentMark, after?]

theorem carries_sankeyValue : Carries S.Ahead S.Ahead sankeyValue := by
  have hquote : Carries S.Ahead S.Ahead (literal ['"']) :=
    carries_literal_ahead (by decide) (by decide)
  exact (carries_digits.alt (hquote.seq (carries_digits.seq hquote))).whenRest
    fun _ _ ↦ endsLine_eq

theorem length_cut?_lt {mark cs before rest : List Char} (hm : mark ≠ [])
    (h : cut? mark cs = some (before, rest)) : rest.length < cs.length := by
  have hl := List.length_pos_iff.2 hm
  rw [Text.eq_append_of_cut? h]
  simp only [List.length_append]
  omega

theorem finds_through {mark : List Char} (hm : mark ≠ []) (hb : mark.any isBreak = false)
    (hs : ' ' ∉ mark) : S.Finds S.Ahead S.Ahead (through mark) := by
  obtain ⟨b, bs, ho, hb'⟩ := @Seam.not_mem_old_head S mark hb
  obtain ⟨z, zs, hw, hz⟩ := @Seam.not_mem_whole_head S mark hb hs
  rintro xs ys t rest ⟨cs, rfl, rfl⟩ h
  obtain ⟨before, hc, rfl⟩ := through_eq_some_iff.1 h
  rw [ho, Text.cut?_append hm hb'] at hc
  cases hcs : cut? mark cs with
  | some p =>
    rw [hcs] at hc
    obtain ⟨rfl, hr⟩ := Prod.mk.inj (Option.some.inj hc)
    obtain rfl := List.append_cancel_right hr
    refine ⟨_, _, through_eq_some_iff.2 ⟨p.1, ?_, rfl⟩, p.2, rfl, rfl⟩
    rw [hw, Text.cut?_append hm hz, hcs]
  | none =>
    -- a mark beyond the seam would leave less than what follows the seam
    rw [hcs] at hc
    obtain ⟨p, hp, he⟩ := Option.map_eq_some_iff.1 hc
    have hlt := length_cut?_lt hm hp
    have hl := congrArg List.length (Prod.mk.inj he).2
    simp only [List.length_append, List.length_cons] at hl hlt
    omega

theorem loses_through {mark : List Char}
    (hm : mark ∈ [['*', '%', '%'], ['\x7d', '%', '%'], ['\x7d']]) :
    Loses S.Ahead (through mark) := by
  have hall : ∀ mark ∈ [['*', '%', '%'], ['\x7d', '%', '%'], ['\x7d']],
      mark ≠ [] ∧ mark.any isBreak = false ∧ ' ' ∉ mark := by decide
  obtain ⟨hn, hb, hs⟩ := hall mark hm
  obtain ⟨b, bs, ho, hb'⟩ := @Seam.not_mem_old_head S mark hb
  obtain ⟨z, zs, hw, hz⟩ := @Seam.not_mem_whole_head S mark hb hs
  rintro xs ys ⟨cs, rfl, rfl⟩ h
  rw [through, Option.map_eq_none_iff] at h ⊢
  rw [ho, Text.cut?_append hn hb'] at h
  rw [hw, Text.cut?_append hn hz]
  cases hcs : cut? mark cs with
  | some p =>
    rw [hcs] at h
    cases h
  | none =>
    rw [hcs, ← ho] at h
    -- Unclosed in the old text, and what is put in brings no mark to close it with.
    have hnew : cut? mark S.whole = none := S.closing mark hm (Option.map_eq_none_iff.1 h)
    rw [← hw, hnew]
    rfl

theorem finds_directive : S.Finds S.Ahead S.Ahead directive :=
  ((carries_literal_ahead (by decide) (by decide)).finds).seq (splits_through _)
    (finds_through (by simp) (by decide) (by decide))

theorem loses_directive : Loses S.Ahead directive :=
  Loses.seq (carries_literal_ahead (by decide) (by decide)) (loses_through (by simp))

theorem carries_blockMark : Carries S.Firm S.Ahead (literal ['%', '%', '*']) := by
  rintro xs ys (h | ⟨rfl, rfl⟩)
  · exact carries_literal_ahead (by decide) (by decide) xs ys h.ahead
  · obtain ⟨b, bs, ho, hb⟩ := S.old_head
    have hne {c : Char} (hc : isBreak c = true) : '%' ≠ c := by
      rintro rfl
      simp [isBreak] at hc
    refine .inl ⟨by simp [literal, ho, after?, hne hb], ?_⟩
    rcases S.put_in with ⟨-, b', cs, hnew, hb', -⟩ | ⟨-, cs, hnew⟩
    · simp [literal, hnew, after?, hne hb']
    · simp [literal, hnew, after?]

theorem finds_blockComment : S.Finds S.Ahead S.Ahead blockComment :=
  carries_many_isSpace.finds.seq ((splits_literal _).seq (splits_through _))
    (carries_blockMark.finds.seq (splits_through _)
      (finds_through (by simp) (by decide) (by decide)))

theorem loses_blockComment : Loses S.Ahead blockComment :=
  Loses.seq carries_many_isSpace (Loses.seq carries_blockMark (loses_through (by simp)))

def descriptionBlock : Pattern :=
  (many isBlank).seq ((literal ['\x7b']).seq (through ['\x7d']))

theorem carries_brace : Carries S.Ahead S.Ahead (literal ['\x7b']) :=
  carries_literal_ahead (by decide) (by decide)

theorem finds_descriptionBlock : S.Finds S.Ahead S.Ahead descriptionBlock := by
  have hblock : S.Finds S.Ahead S.Ahead ((literal ['\x7b']).seq (through ['\x7d'])) :=
    carries_brace.finds.seq (splits_through _) (finds_through (by simp) (by decide) (by decide))
  rintro xs ys t rest ⟨cs, rfl, rfl⟩ h
  obtain ⟨_, _, b, hm, hb, rfl⟩ := seq_eq_some_iff.1 h
  obtain ⟨rfl, rfl⟩ := many_eq_some_iff.1 hm
  by_cases hd : (cs.dropWhile isBlank).isEmpty = true
  · -- the block would open beyond the seam, and could not end before it
    rw [List.dropWhile_append, if_pos hd] at hb
    obtain ⟨_, mid, _, hl, ht, -⟩ := seq_eq_some_iff.1 hb
    obtain ⟨-, hmid⟩ := literal_eq_some_iff.1 hl
    obtain ⟨before, hc, -⟩ := through_eq_some_iff.1 ht
    have hlt := length_cut?_lt (by simp) hc
    have hle := (List.dropWhile_suffix (l := S.old) isBlank).length_le
    rw [hmid] at hle
    simp only [List.length_append, List.length_cons] at hlt hle
    omega
  · rw [List.dropWhile_append, if_neg hd] at hb
    obtain ⟨u, ys', hy, hr⟩ := hblock _ _ b rest ⟨_, rfl, rfl⟩ hb
    refine ⟨_, ys', seq_eq_some_iff.2 ⟨_, _, u, many_eq_some_iff.2 ⟨rfl, rfl⟩, ?_, rfl⟩, hr⟩
    rw [List.dropWhile_append, if_neg hd]
    exact hy

theorem loses_descriptionBlock : Loses S.Ahead descriptionBlock := by
  have hblock : Loses S.Ahead ((literal ['\x7b']).seq (through ['\x7d'])) :=
    Loses.seq carries_brace (loses_through (by simp))
  rintro xs ys ⟨cs, rfl, rfl⟩ h
  by_cases hd : (cs.dropWhile isBlank).isEmpty = true
  · have hno : literal ['\x7b'] (S.whole.dropWhile isBlank) = none := by
      have hne := S.dropWhile_blank
      change ∀ c ∈ (S.whole.dropWhile isBlank).head?, c ≠ '\x7b' at hne
      cases hw : S.whole.dropWhile isBlank with
      | nil => rfl
      | cons c cs =>
        rw [hw] at hne
        have hc : c ≠ '\x7b' := hne c rfl
        simp [literal, after?, hc.symm]
    simp [descriptionBlock, seq, many, List.dropWhile_append, hd, hno]
  · have hx : ((literal ['\x7b']).seq (through ['\x7d'])) (cs.dropWhile isBlank ++ S.old) = none := by
      simpa [descriptionBlock, seq, many, List.dropWhile_append, hd] using h
    have hy := hblock _ _ ⟨_, rfl, rfl⟩ hx
    simpa [descriptionBlock, seq, many, List.dropWhile_append, hd] using hy

theorem quotedRest_cons {c : Char} (hc : c ≠ '"') (cs : List Char) :
    quotedRest (c :: cs) = (quotedRest cs).map fun (taken, rest) ↦ (c :: taken, rest) := by
  rw [quotedRest]
  · exact fun _ h ↦ absurd h hc
  · exact hc

theorem quotedRest_append {z : Char} (hz : z ≠ '"') (cs rest : List Char) :
    quotedRest (cs ++ z :: rest) =
      match quotedRest cs with
      | some (taken, tail) => some (taken, tail ++ z :: rest)
      | none => (quotedRest (z :: rest)).map fun (taken, tail) ↦ (cs ++ taken, tail) := by
  fun_induction quotedRest cs with
  | case1 cs ih =>
    rw [List.cons_append, List.cons_append, quotedRest, ih]
    cases quotedRest cs with
    | some p => rfl
    | none => cases quotedRest (z :: rest) <;> rfl
  | case2 cs hcs =>
    cases cs with
    | nil => simp [quotedRest, hz]
    | cons c cs =>
      have hc : c ≠ '"' := fun h ↦ hcs cs (h ▸ rfl)
      simp [quotedRest, hc]
  | case3 c cs _ hc ih =>
    rw [List.cons_append, quotedRest_cons hc, ih]
    cases quotedRest cs with
    | some p => rfl
    | none => cases quotedRest (z :: rest) <;> rfl
  | case4 =>
    rw [List.nil_append]
    cases quotedRest (z :: rest) <;> rfl

theorem finds_quotedRest : S.Finds S.Ahead S.Ahead quotedRest := by
  obtain ⟨b, bs, ho, hb⟩ := @Seam.not_mem_old_head S ['"'] (by decide)
  obtain ⟨z, zs, hw, hz⟩ := @Seam.not_mem_whole_head S ['"'] (by decide) (by decide)
  rw [List.mem_singleton] at hb hz
  rintro xs ys t rest ⟨cs, rfl, rfl⟩ h
  rw [ho, quotedRest_append hb] at h
  rw [hw, quotedRest_append hz]
  cases hcs : quotedRest cs with
  | some p =>
    rw [hcs] at h
    obtain ⟨rfl, hr⟩ := Prod.mk.inj (Option.some.inj h)
    obtain rfl := List.append_cancel_right hr
    exact ⟨p.1, _, rfl, p.2, by rw [ho], by rw [hw]⟩
  | none =>
    rw [hcs] at h
    obtain ⟨p, hp, he⟩ := Option.map_eq_some_iff.1 h
    have hsplit := congrArg List.length (splits_quotedRest _ _ _ hp)
    have hne : p.1 ≠ [] := quotedRest_ne_nil hp
    have hpos := List.length_pos_iff.2 hne
    have hl := congrArg List.length (Prod.mk.inj he).2
    simp only [List.length_append, List.length_cons] at hl hsplit
    omega

theorem loses_quotedRest : Loses S.Ahead quotedRest := by
  obtain ⟨b, bs, ho, hb⟩ := @Seam.not_mem_old_head S ['"'] (by decide)
  obtain ⟨z, zs, hw, hz⟩ := @Seam.not_mem_whole_head S ['"'] (by decide) (by decide)
  rw [List.mem_singleton] at hb hz
  rintro xs ys ⟨cs, rfl, rfl⟩ h
  rw [ho, quotedRest_append hb] at h
  rw [hw, quotedRest_append hz]
  cases hcs : quotedRest cs with
  | some p =>
    rw [hcs] at h
    cases h
  | none =>
    rw [hcs, ← ho] at h
    have hnew := S.quotedRest_none (Option.map_eq_none_iff.1 h)
    change quotedRest S.whole = none at hnew
    rw [← hw, hnew]
    rfl

theorem finds_quotedField : S.Finds S.Ahead S.Ahead quotedField := by
  have hquote : S.Finds S.Ahead S.Ahead (literal ['"']) :=
    (carries_literal_ahead (by decide) (by decide)).finds
  have hs : Splits ((literal ['"']).seq quotedRest) := (splits_literal _).seq splits_quotedRest
  rintro xs ys t rest hxy h
  obtain ⟨h, hlen⟩ := Option.filter_eq_some_iff.1 h
  obtain ⟨u, ys', hy, hr⟩ := (hquote.seq splits_quotedRest finds_quotedRest) xs ys t rest hxy h
  refine ⟨u, ys', Option.filter_eq_some_iff.2 ⟨hy, ?_⟩, hr⟩
  obtain ⟨cs, rfl, rfl⟩ := hxy
  rw [hr.taken (hs _ _ _ h) (hs _ _ _ hy)]
  exact hlen

theorem exists_rest_of_short {cs t r : List Char}
    (h : ((literal ['"']).seq quotedRest) (cs ++ S.old) = some (t, r)) (hlen : t.length ≤ 2) :
    ∃ rest, r = rest ++ S.old := by
  obtain ⟨b, bs, ho, hb⟩ := @Seam.not_mem_old_head S ['"'] (by decide)
  rw [List.mem_singleton] at hb
  obtain ⟨_, mid, field, hl, hq, rfl⟩ := seq_eq_some_iff.1 h
  obtain ⟨rfl, he⟩ := literal_eq_some_iff.1 hl
  have hne : field ≠ [] := quotedRest_ne_nil hq
  rcases cs with _ | ⟨c, _ | ⟨d, cs⟩⟩
  · rw [ho] at he
    exact absurd (List.cons.inj he).1 hb
  · have hmid : S.old = mid := (List.cons.inj he).2
    rw [← hmid, ho, quotedRest_cons hb] at hq
    obtain ⟨p, hp, hf⟩ := Option.map_eq_some_iff.1 hq
    obtain ⟨rfl, -⟩ := Prod.mk.inj hf
    have hpos := List.length_pos_iff.2 (quotedRest_ne_nil hp)
    simp only [List.length_append, List.length_cons] at hlen
    omega
  · have hmid : d :: cs ++ S.old = mid := (List.cons.inj he).2
    have hsplit := splits_quotedRest _ _ _ hq
    rw [← hmid] at hsplit
    rcases field with _ | ⟨e, _ | ⟨e', field⟩⟩
    · exact absurd rfl hne
    · exact ⟨cs, (List.cons.inj hsplit).2.symm⟩
    · simp only [List.length_append, List.length_cons] at hlen
      omega

theorem loses_quotedField : Loses S.Ahead quotedField := by
  have hquote : Carries S.Ahead S.Ahead (literal ['"']) :=
    carries_literal_ahead (by decide) (by decide)
  have hs : Splits ((literal ['"']).seq quotedRest) := (splits_literal _).seq splits_quotedRest
  rintro xs ys ⟨cs, rfl, rfl⟩ h
  unfold quotedField at h ⊢
  cases hx : (literal ['"']).seq quotedRest (cs ++ S.old) with
  | none =>
    rw [Loses.seq hquote loses_quotedRest _ _ ⟨cs, rfl, rfl⟩ hx]
    rfl
  | some m =>
    obtain ⟨t, r⟩ := m
    have hlen : t.length ≤ 2 := by simpa [hx, Option.filter_some] using h
    obtain ⟨rest, rfl⟩ := exists_rest_of_short hx hlen
    obtain ⟨u, ys', hy, hr⟩ := hquote.finds.seq splits_quotedRest finds_quotedRest _ _ t rest
      ⟨cs, rfl, rfl⟩ hx
    have hu := hr.taken (hs _ _ _ hx) (hs _ _ _ hy)
    simp [hy, hu, Option.filter_some, hlen]

theorem startsWith_quote (S : Seam) {cs : List Char} :
    startsWith ['"'] (cs ++ S.old) = startsWith ['"'] cs ∧
    startsWith ['"'] (cs ++ S.whole) = startsWith ['"'] cs := by
  obtain ⟨b, bs, ho, hb⟩ := @Seam.not_mem_old_head S ['"'] (by decide)
  obtain ⟨z, zs, hw, hz⟩ := @Seam.not_mem_whole_head S ['"'] (by decide) (by decide)
  rw [ho, hw]
  exact ⟨Text.startsWith_append hb cs bs, Text.startsWith_append hz cs zs⟩

theorem keeps_sankeyNode : S.Keeps .sankeyNode sankeyNode := by
  have hfree : Carries S.Firm S.Meets (freeText [',']).nonempty :=
    carries_freeText_nonempty (by decide)
  intro cs t rest hcs hc h
  obtain ⟨ho, hw⟩ := @startsWith_quote S cs
  rw [sankeyNode, ho] at h
  rw [sankeyNode, hw]
  split at h
  · rename_i hq
    rw [if_pos hq]
    have hfield : S.Keeps .sankeyNode quotedField :=
      Seam.keeps_of_finds_ahead splits_quotedField finds_quotedField.before
    exact hfield cs t rest hcs hc h
  · rename_i hq
    rw [if_neg hq]
    have hs : Splits (freeText [',']).nonempty := (splits_freeText _).nonempty
    obtain ⟨u, ys, hy, hm⟩ := hfree.finds _ _ t rest (.inl ⟨cs, hcs, rfl, rfl⟩) h
    refine ⟨(u, ys), hy, ?_⟩
    rcases hm.taken (hs _ _ _ h) (hs _ _ _ hy) with ha | ⟨ht, hu, hg⟩
    · exact .inl ha
    · exact .inr ⟨.sankeyNode (ht ▸ eq_false_of_ne_true hq), hu, hg⟩

theorem misses_sankeyNode : S.Misses sankeyNode := by
  intro cs hcs hc h
  obtain ⟨ho, hw⟩ := @startsWith_quote S cs
  rw [sankeyNode, ho] at h
  rw [sankeyNode, hw]
  split at h
  · rename_i hq
    rw [if_pos hq]
    exact loses_quotedField _ _ ⟨cs, rfl, rfl⟩ h
  · rename_i hq
    rw [if_neg hq]
    exact (carries_freeText_nonempty (by decide)).loses _ _ (.inl ⟨cs, hcs, rfl, rfl⟩) h

section Closed

variable {inner : Char → Bool} {close : List Char}

theorem literal_old (hn : close ≠ []) (hc : close.any isBreak = false) :
    literal close S.old = none := by
  obtain ⟨b, bs, ho, hb⟩ := @Seam.not_mem_old_head S close hc
  obtain ⟨q, close, rfl⟩ := List.exists_cons_of_ne_nil hn
  have hq : q ≠ b := fun h ↦ hb (h ▸ List.mem_cons_self)
  simp [literal, ho, after?, hq]

theorem finds_closed (hi : ∀ b, isBreak b = true → inner b = false) (hn : close ≠ [])
    (hc : close.any isBreak = false) (hs : ' ' ∉ close) :
    S.Finds S.Ahead S.Ahead ((many inner).seq (literal close)) := by
  obtain ⟨b, bs, ho, hb⟩ := S.old_head
  have hold : S.old.dropWhile inner = S.old := by
    rw [ho, List.dropWhile_cons_of_neg (by simp [hi b hb])]
  rintro xs ys t rest ⟨cs, rfl, rfl⟩ h
  obtain ⟨_, _, u, hm, hl, rfl⟩ := seq_eq_some_iff.1 h
  obtain ⟨rfl, rfl⟩ := many_eq_some_iff.1 hm
  by_cases hd : (cs.dropWhile inner).isEmpty = true
  · rw [List.dropWhile_append, if_pos hd, hold, literal_old hn hc] at hl
    cases hl
  · rw [List.dropWhile_append, if_neg hd] at hl
    obtain ⟨u', ys', hy, hr⟩ := (carries_literal_ahead hc hs).finds _ _ u rest ⟨_, rfl, rfl⟩ hl
    refine ⟨_, ys', seq_eq_some_iff.2 ⟨_, _, u', many_eq_some_iff.2 ⟨rfl, rfl⟩, ?_, rfl⟩, hr⟩
    rw [List.dropWhile_append, if_neg hd]
    exact hy

def closedQuote (close : List Char) : Pattern :=
  (many fun c ↦ !(c = '"' || isBreak c)).seq (literal close)

theorem loses_closedQuote (hn : close ≠ []) (hc : close.any isBreak = false)
    (hs : ' ' ∉ close) : Loses S.Ahead (closedQuote close) := by
  rintro xs ys ⟨cs, rfl, rfl⟩ h
  by_cases hd : (cs.dropWhile fun c ↦ !(c = '"' || isBreak c)).isEmpty = true
  · obtain ⟨b, bs, hw, hb⟩ := S.dropWhile_quote
    obtain ⟨q, close, rfl⟩ := List.exists_cons_of_ne_nil hn
    have hq : q ≠ b := fun h ↦ List.any_eq_false.1 hc q List.mem_cons_self (h ▸ hb)
    have hno : literal (q :: close) (S.whole.dropWhile fun c ↦ !(c = '"' || isBreak c)) = none := by
      rw [Seam.whole, hw]
      simp [literal, after?, hq]
    simp only [closedQuote, seq, many, Option.bind_some]
    rw [List.dropWhile_append, if_pos hd, hno]
    rfl
  · have hx : literal close (cs.dropWhile (fun c ↦ !(c = '"' || isBreak c)) ++ S.old) = none := by
      simp only [closedQuote, seq, many, Option.bind_some] at h
      rw [List.dropWhile_append, if_neg hd] at h
      exact Option.map_eq_none_iff.1 h
    have hy := (carries_literal_ahead hc hs).loses _ _ ⟨_, rfl, rfl⟩ hx
    simp only [closedQuote, seq, many, Option.bind_some]
    rw [List.dropWhile_append, if_neg hd, hy]
    rfl

theorem many1_seq {q : Pattern} (cs : List Char) :
    ((many1 inner).seq q) cs =
      if cs.takeWhile inner = [] then none else ((many inner).seq q) cs := by
  unfold seq many1
  split <;> rfl

theorem takeWhile_eq_nil_ahead {xs ys : List Char} (h : S.Before xs ys) :
    xs.takeWhile inner = [] ↔ ys.takeWhile inner = [] := by
  obtain ⟨cs, hn, rfl, rfl⟩ := h
  obtain ⟨c, cs, rfl⟩ := List.exists_cons_of_ne_nil hn
  cases hc : inner c <;> simp [hc]

theorem finds_closed1 (hi : ∀ b, isBreak b = true → inner b = false) (hn : close ≠ [])
    (hc : close.any isBreak = false) (hs : ' ' ∉ close) :
    S.Finds S.Ahead S.Ahead ((many1 inner).seq (literal close)) := by
  rintro xs ys t rest hxy h
  rw [many1_seq] at h
  split at h
  · cases h
  · rename_i hne
    obtain ⟨u, ys', hy, hr⟩ := finds_closed hi hn hc hs xs ys t rest hxy h
    obtain ⟨cs, rfl, rfl⟩ := hxy
    have hcs : cs ≠ [] := by
      rintro rfl
      obtain ⟨b, bs, ho, hb⟩ := S.old_head
      rw [List.nil_append, ho, List.takeWhile_cons_of_neg (by simp [hi b hb])] at hne
      exact hne rfl
    refine ⟨u, ys', ?_, hr⟩
    rw [many1_seq, if_neg fun he ↦ hne ((takeWhile_eq_nil_ahead ⟨cs, hcs, rfl, rfl⟩).2 he)]
    exact hy

theorem loses_closedQuote1 (hn : close ≠ []) (hc : close.any isBreak = false)
    (hs : ' ' ∉ close) :
    Loses S.Ahead ((many1 fun c ↦ !(c = '"' || isBreak c)).seq (literal close)) := by
  rintro xs ys ⟨cs, rfl, rfl⟩ h
  rw [many1_seq]
  split
  · rfl
  · rename_i hne
    refine loses_closedQuote hn hc hs _ _ ⟨cs, rfl, rfl⟩ ?_
    by_cases hcs : cs = []
    · obtain ⟨b, bs, ho, hb⟩ := S.old_head
      have hold : S.old.dropWhile (fun c ↦ !(c = '"' || isBreak c)) = S.old := by
        rw [ho, List.dropWhile_cons_of_neg (by simp [hb])]
      simp only [hcs, closedQuote, seq, many, Option.bind_some, List.nil_append, hold,
        literal_old hn hc, Option.map_none]
    · rw [many1_seq, if_neg fun he ↦ hne ((takeWhile_eq_nil_ahead ⟨cs, hcs, rfl, rfl⟩).1 he)] at h
      exact h

end Closed

theorem not_inner_of_isBreak (q : Char) : ∀ b, isBreak b = true → (!(b = q || isBreak b)) = false := by
  intro b hb
  simp [hb]

theorem finds_quoted {q : Char} (hq : isBreak q = false) (hs : q ≠ ' ') :
    S.Finds S.Ahead S.Ahead (quoted q) := by
  have hc : [q].any isBreak = false := by simpa using hq
  have hsp : ' ' ∉ [q] := by simpa using hs.symm
  exact (carries_literal_ahead hc hsp).finds.seq ((splits_many _).seq (splits_literal _))
    (finds_closed (not_inner_of_isBreak q) (by simp) hc hsp)

theorem loses_quoted : Loses S.Ahead (quoted '"') :=
  Loses.seq (carries_literal_ahead (by decide) (by decide))
    (loses_closedQuote (by simp) (by decide) (by decide))

theorem finds_archTextIcon : S.Finds S.Ahead S.Ahead archTextIcon :=
  (carries_literal_ahead (by decide) (by decide)).finds.seq
    ((splits_many1 _).seq (splits_literal _))
    (finds_closed1 (not_inner_of_isBreak '"') (by simp) (by decide) (by decide))

theorem loses_archTextIcon : Loses S.Ahead archTextIcon :=
  Loses.seq (carries_literal_ahead (by decide) (by decide))
    (loses_closedQuote1 (by simp) (by decide) (by decide))

theorem finds_archTitle : S.Finds S.Ahead S.Ahead archTitle :=
  (carries_literal_ahead (by decide) (by decide)).finds.seq
    ((splits_many1 _).seq (splits_literal _))
    (finds_closed1 (not_inner_of_isBreak ']') (by simp) (by decide) (by decide))

theorem head?_of_literal_seq {c : Char} {q : Pattern} {cs : List Char}
    (h : ((literal [c]).seq q) cs ≠ none) : cs.head? = some c := by
  cases hl : literal [c] cs with
  | none => simp [seq, hl] at h
  | some m =>
    obtain ⟨-, he⟩ := literal_eq_some_iff.1 (show literal [c] cs = some (m.1, m.2) from hl)
    rw [he]
    rfl

theorem lineEnd_feed (cs : List Char) : lineEnd ('\n' :: cs) = some (['\n'], cs) := by
  simp [lineEnd, alt, literal, after?]

theorem lineEnd_return (cs : List Char) :
    lineEnd ('\r' :: '\n' :: cs) = some (['\r', '\n'], cs) := by
  simp [lineEnd, alt, literal, after?]

theorem lineEnd_return_of_ne {cs : List Char} (h : cs.head? ≠ some '\n') :
    lineEnd ('\r' :: cs) = none := by
  cases cs with
  | nil => simp [lineEnd, alt, literal, after?]
  | cons d ds =>
    have hd : '\n' ≠ d := fun he ↦ h (congrArg some he.symm)
    simp [lineEnd, alt, literal, after?, hd]

theorem lineEnd_of_ne {c : Char} (hf : c ≠ '\n') (hr : c ≠ '\r') (cs : List Char) :
    lineEnd (c :: cs) = none := by
  simp [lineEnd, alt, literal, after?, hf.symm, hr.symm]

theorem lineEnd_cases {cs : List Char} (hn : cs ≠ []) (hc : S.Clear cs) :
    (lineEnd (cs ++ S.old) = none ∧ lineEnd (cs ++ S.whole) = none) ∨
    ∃ t rest, lineEnd (cs ++ S.old) = some (t, rest ++ S.old) ∧
      lineEnd (cs ++ S.whole) = some (t, rest ++ S.whole) := by
  obtain ⟨c, cs, rfl⟩ := List.exists_cons_of_ne_nil hn
  by_cases hf : c = '\n'
  · subst hf
    exact .inr ⟨_, cs, lineEnd_feed _, lineEnd_feed _⟩
  by_cases hr : c = '\r'
  · subst hr
    cases cs with
    | nil => exact .inl ⟨lineEnd_return_of_ne (hc rfl), lineEnd_return_of_ne (hc.whole_head rfl)⟩
    | cons d ds =>
      by_cases hd : d = '\n'
      · subst hd
        exact .inr ⟨_, ds, lineEnd_return _, lineEnd_return _⟩
      · have hne {rest : List Char} : (d :: rest).head? ≠ some '\n' :=
          fun h ↦ hd (Option.some.inj h)
        exact .inl ⟨lineEnd_return_of_ne hne, lineEnd_return_of_ne hne⟩
  · exact .inl ⟨lineEnd_of_ne hf hr _, lineEnd_of_ne hf hr _⟩

theorem keeps_lineEnd : S.Keeps .newline lineEnd := by
  intro cs t rest hn hc h
  rcases lineEnd_cases hn hc with ⟨hx, -⟩ | ⟨t', rest', hx, hy⟩
  · rw [h] at hx
    cases hx
  · obtain ⟨rfl, hr⟩ := Prod.mk.inj (Option.some.inj (h.symm.trans hx))
    obtain rfl := List.append_cancel_right hr
    exact ⟨_, hy, .inl ⟨rfl, rest, rfl, rfl⟩⟩

theorem misses_lineEnd : S.Misses lineEnd := by
  intro cs hn hc h
  rcases lineEnd_cases hn hc with ⟨-, hy⟩ | ⟨t', rest', hx, -⟩
  · exact hy
  · rw [h] at hx
    cases hx

theorem keeps_blanks : S.Keeps .whitespace blanks := by
  intro cs t rest hn hc h
  obtain ⟨t', u, xs, ys, hx, hy, hm⟩ := blanks_meets hc
  obtain ⟨rfl, rfl⟩ := Prod.mk.inj (Option.some.inj (h.symm.trans hx))
  refine ⟨(u, ys), hy, ?_⟩
  rcases hm.taken (splits_blanks _ _ _ hx) (splits_blanks _ _ _ hy) with ha | ⟨-, hu, hg⟩
  · exact .inl ha
  · exact .inr ⟨.whitespace, hu, hg⟩

theorem misses_blanks : S.Misses blanks := by
  intro cs hn hc h
  obtain ⟨t', u, xs, ys, hx, -⟩ := blanks_meets hc
  rw [h] at hx
  cases hx

theorem pads_labelled {cs t rest : List Char}
    (h : labelled "accDescr".toList cs = some (t, rest)) : Token.Pads .accDescr t := by
  obtain ⟨_, _, _, hword, hrest, rfl⟩ := seq_eq_some_iff.1 h
  obtain ⟨_, _, _, hspaces, hrest', rfl⟩ := seq_eq_some_iff.1 hrest
  obtain ⟨_, _, _, hcolon, -, rfl⟩ := seq_eq_some_iff.1 hrest'
  obtain ⟨rfl, -⟩ := literal_eq_some_iff.1 hword
  obtain ⟨rfl, -⟩ := many_eq_some_iff.1 hspaces
  obtain ⟨rfl, -⟩ := literal_eq_some_iff.1 hcolon
  exact .accDescr fun c hc ↦ List.mem_takeWhile_imp hc

theorem keeps_accDescr : S.Keeps .accDescr accDescr := by
  have hlabel : Carries S.Ahead S.Meets (labelled "accDescr".toList) :=
    carries_labelled (by decide) (by decide)
  have hword : Carries S.Ahead S.Ahead (literal "accDescr".toList) :=
    carries_literal_ahead (by decide) (by decide)
  have hs : Splits descriptionBlock := (splits_many _).seq ((splits_literal _).seq (splits_through _))
  refine Seam.Keeps.alt ?_ ?_ ?_
  · exact Seam.keeps_of_finds (splits_labelled _) hlabel.finds.before fun _ _ _ ↦ pads_labelled
  · exact Seam.misses_of_loses hlabel.loses.before
  · refine Seam.keeps_of_finds_ahead ((splits_literal _).seq hs) ?_
    exact (hword.finds.seq hs finds_descriptionBlock).before

theorem misses_accDescr : S.Misses accDescr := by
  have hlabel : Carries S.Ahead S.Meets (labelled "accDescr".toList) :=
    carries_labelled (by decide) (by decide)
  have hblock : Loses S.Ahead ((literal "accDescr".toList).seq descriptionBlock) :=
    Loses.seq (carries_literal_ahead (by decide) (by decide)) loses_descriptionBlock
  exact (Seam.misses_of_loses hlabel.loses.before).alt (Seam.misses_of_loses hblock.before)

theorem pads_title {cs t rest : List Char} (h : title cs = some (t, rest)) :
    Token.Pads .title t := by
  obtain ⟨_, _, _, hl, -, rfl⟩ := seq_eq_some_iff.1 h
  obtain ⟨rfl, -⟩ := literal_eq_some_iff.1 (Option.filter_eq_some_iff.1 hl).1
  exact .title

end Pattern

end DiagramText
