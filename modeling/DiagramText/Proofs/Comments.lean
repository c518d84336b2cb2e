import DiagramText.Proofs.SeamWalk

namespace DiagramText

open Text (byteSize cut? isBlank isBreak)
open Pattern (isSpace)

def remark (comment : List Char) : List Char :=
  '%' :: '%' :: ' ' :: comment

/-- The text of a comment that stays on its line, and in which nothing opens or closes. -/
def Plain (comment : List Char) : Prop :=
  ∀ c ∈ comment, c ∉ ['\n', '\r', '%', '*', '\x7b', '\x7d', '"']

def lineBreaks : List (List Char) :=
  [['\n'], ['\r', '\n']]

variable {comment nl pre rest : List Char}

theorem Plain.isBreak_remark (h : Plain comment) : ∀ c ∈ remark comment, isBreak c = false := by
  simp only [remark, List.forall_mem_cons]
  refine ⟨by decide, by decide, by decide, fun c hc ↦ ?_⟩
  by_contra hb
  simp only [isBreak, Bool.not_eq_false, Bool.or_eq_true, decide_eq_true_eq] at hb
  rcases hb with rfl | rfl <;> exact h _ hc (by decide)

theorem Plain.not_mem (h : Plain comment) {c : Char} (hc : c ∈ ['*', '\x7d', '"']) :
    c ∉ ' ' :: remark comment ∧ c ∉ remark comment ++ ['\n'] := by
  have hm : c ∉ comment := fun hm ↦ h c hm (by
    simp only [List.mem_cons, List.not_mem_nil, or_false] at hc
    rcases hc with rfl | rfl | rfl <;> decide)
  simp only [List.mem_cons, List.not_mem_nil, or_false] at hc
  rcases hc with rfl | rfl | rfl <;> simp [remark, hm]

theorem Text.cut?_append_eq_none_iff {m : Char} {ms : List Char} (h : m ∉ pre) :
    cut? (m :: ms) (pre ++ rest) = none ↔ cut? (m :: ms) rest = none := by
  induction pre with
  | nil => rfl
  | cons c cs ih =>
    obtain ⟨hc, hcs⟩ := not_or.1 (mt List.mem_cons.2 h)
    have ha : Text.after? (m :: ms) (c :: (cs ++ rest)) = none := by simp [Text.after?, hc]
    rw [List.cons_append, cut?, ha, ← ih hcs]
    exact Option.map_eq_none_iff

theorem Pattern.quotedRest_append_eq_none_iff (h : '"' ∉ pre) :
    quotedRest (pre ++ rest) = none ↔ quotedRest rest = none := by
  induction pre with
  | nil => rfl
  | cons c cs ih =>
    obtain ⟨hc, hcs⟩ := not_or.1 (mt List.mem_cons.2 h)
    rw [List.cons_append, quotedRest_cons (Ne.symm hc), ← ih hcs]
    exact Option.map_eq_none_iff

theorem exists_head_of_lineBreak (h : nl ∈ lineBreaks) (rest : List Char) :
    ∃ b cs, nl ++ rest = b :: cs ∧ isBreak b = true := by
  simp only [lineBreaks, List.mem_cons, List.not_mem_nil, or_false] at h
  rcases h with rfl | rfl
  · exact ⟨'\n', rest, rfl, rfl⟩
  · exact ⟨'\r', '\n' :: rest, rfl, rfl⟩

theorem blanks_lineBreak (h : nl ∈ lineBreaks) (rest : List Char) :
    Pattern.blanks (nl ++ rest) = some ([], nl ++ rest) := by
  simp only [lineBreaks, List.mem_cons, List.not_mem_nil, or_false] at h
  rcases h with rfl | rfl <;> rfl

theorem isBreak_of_lineBreak (h : nl ∈ lineBreaks) :
    ∀ c ∈ nl, isBreak c = true ∧ isBlank c = true := by
  simp only [lineBreaks, List.mem_cons, List.not_mem_nil, or_false] at h
  rcases h with rfl | rfl <;> simp [isBreak, isBlank]

theorem not_mem_nl (h : nl ∈ lineBreaks) {c : Char} (hc : isBreak c = false) : c ∉ nl := by
  intro hm
  rw [(isBreak_of_lineBreak h c hm).1] at hc
  cases hc

namespace Seam

def beforeEnd (hc : Plain comment) (hn : nl ∈ lineBreaks) (rest : List Char) : Seam where
  old := nl ++ rest
  blank := [' ']
  new := remark comment ++ (nl ++ rest)
  old_head := exists_head_of_lineBreak hn rest
  old_blanks := blanks_lineBreak hn rest
  new_blanks := rfl
  put_in := .inr ⟨rfl, _, rfl⟩
  closing := by
    simp only [List.forall_mem_cons, ← List.append_assoc [' ']]
    refine ⟨?_, ?_, ?_, by simp⟩
    all_goals exact (Text.cut?_append_eq_none_iff (hc.not_mem (by decide)).1).2
  quotedRest_none := by
    rw [← List.append_assoc]
    exact (Pattern.quotedRest_append_eq_none_iff (hc.not_mem (by decide)).1).2
  dropWhile_quote := by
    obtain ⟨b, cs, hb, hbr⟩ := exists_head_of_lineBreak hn rest
    have hpos : ∀ c ∈ ' ' :: remark comment, (!(c = '"' || isBreak c)) = true := by
      intro c hm
      have hq : c ≠ '"' := fun he ↦ (hc.not_mem (by decide)).1 (he ▸ hm)
      have hbreak : isBreak c = false := by
        rcases List.mem_cons.1 hm with rfl | hm
        · decide
        · exact hc.isBreak_remark c hm
      simp [hq, hbreak]
    refine ⟨b, cs, ?_, hbr⟩
    rw [← List.append_assoc, List.singleton_append, List.dropWhile_append_of_pos hpos, hb,
      List.dropWhile_cons_of_neg (by simp [hbr])]
  dropWhile_blank := by
    intro c h
    obtain rfl : '%' = c := Option.some.inj h
    decide

def afterEnd (hc : Plain comment) (hn : nl ∈ lineBreaks) (rest : List Char) : Seam where
  old := nl ++ rest
  blank := []
  new := nl ++ (remark comment ++ '\n' :: rest)
  old_head := exists_head_of_lineBreak hn rest
  old_blanks := blanks_lineBreak hn rest
  new_blanks := blanks_lineBreak hn _
  put_in := by
    refine .inl ⟨rfl, ?_⟩
    simp only [lineBreaks, List.mem_cons, List.not_mem_nil, or_false] at hn
    rcases hn with rfl | rfl <;> exact ⟨_, _, rfl, by decide, rfl⟩
  closing := by
    have hkeep {m : Char} {ms : List Char} (hm : m ∈ ['*', '\x7d', '"']) (hb : isBreak m = false) :
        cut? (m :: ms) (nl ++ rest) = none →
          cut? (m :: ms) (nl ++ (remark comment ++ '\n' :: rest)) = none := by
      rw [Text.cut?_append_eq_none_iff (not_mem_nl hn hb),
        Text.cut?_append_eq_none_iff (not_mem_nl hn hb), List.append_cons,
        Text.cut?_append_eq_none_iff (hc.not_mem hm).2]
      exact id
    simp only [List.forall_mem_cons]
    exact ⟨hkeep (by decide) (by decide), hkeep (by decide) (by decide),
      hkeep (by decide) (by decide), by simp⟩
  quotedRest_none := by
    have hq : '"' ∉ nl := not_mem_nl hn (by decide)
    rw [List.nil_append, Pattern.quotedRest_append_eq_none_iff hq,
      Pattern.quotedRest_append_eq_none_iff hq, List.append_cons,
      Pattern.quotedRest_append_eq_none_iff (hc.not_mem (by decide)).2]
    exact id
  dropWhile_quote := by
    obtain ⟨b, cs, hb, hbr⟩ := exists_head_of_lineBreak hn (remark comment ++ '\n' :: rest)
    exact ⟨b, cs, by rw [List.nil_append, hb, List.dropWhile_cons_of_neg (by simp [hbr])], hbr⟩
  dropWhile_blank := by
    intro c h
    rw [List.nil_append, List.dropWhile_append_of_pos fun c hm ↦ (isBreak_of_lineBreak hn c hm).2] at h
    obtain rfl : '%' = c := Option.some.inj h
    decide

theorem afterLine_beforeEnd (hc : Plain comment) (hn : nl ∈ lineBreaks) (rest : List Char) :
    (beforeEnd hc hn rest).afterLine = nl ++ rest := by
  obtain ⟨b, cs, hb, hbr⟩ := exists_head_of_lineBreak hn rest
  have hpos : ∀ c ∈ [' '] ++ remark comment, (!isBreak c) = true := by
    rw [List.singleton_append, List.forall_mem_cons]
    exact ⟨by decide, fun c hm ↦ by rw [hc.isBreak_remark c hm]; rfl⟩
  have hw : (beforeEnd hc hn rest).whole = [' '] ++ remark comment ++ (nl ++ rest) :=
    (List.append_assoc _ _ _).symm
  rw [afterLine, hw, List.dropWhile_append_of_pos hpos, hb,
    List.dropWhile_cons_of_neg (by simp [hbr])]

theorem afterLine_afterEnd (hc : Plain comment) (hn : nl ∈ lineBreaks) (rest : List Char) :
    (afterEnd hc hn rest).afterLine = nl ++ (remark comment ++ '\n' :: rest) := by
  obtain ⟨b, cs, hb, hbr⟩ := exists_head_of_lineBreak hn (remark comment ++ '\n' :: rest)
  have hw : (afterEnd hc hn rest).whole = nl ++ (remark comment ++ '\n' :: rest) := rfl
  rw [afterLine, hw, hb, List.dropWhile_cons_of_neg (by simp [hbr])]

end Seam

theorem many_remark (hc : Plain comment) (hn : nl ∈ lineBreaks) (rest : List Char) :
    Pattern.many (fun c ↦ !isBreak c) (' ' :: comment ++ (nl ++ rest)) =
      some (' ' :: comment, nl ++ rest) := by
  obtain ⟨b, cs, hb, hbr⟩ := exists_head_of_lineBreak hn rest
  have hpos : ∀ c ∈ ' ' :: comment, (!isBreak c) = true := by
    intro c hm
    rw [hc.isBreak_remark c (List.mem_cons_of_mem _ (List.mem_cons_of_mem _ hm))]
    rfl
  rw [Pattern.many, List.takeWhile_append_of_pos hpos, List.dropWhile_append_of_pos hpos, hb,
    List.takeWhile_cons_of_neg (by simp [hbr]), List.dropWhile_cons_of_neg (by simp [hbr]),
    List.append_nil]

namespace Kind

variable {k : Kind} {c c' d : Cursor} {ts us : List Token}

theorem match?_remark (hc : Plain comment) (hn : nl ∈ lineBreaks) (spaces : List Char)
    (hs : ∀ c ∈ spaces, isSpace c = true) (hd : d.Begun)
    (ha : d.after = spaces ++ (remark comment ++ (nl ++ rest))) :
    k.grammar.lexicon.match? d = some ⟨.lineComment, spaces ++ remark comment, nl ++ rest⟩ := by
  have hspaces : Pattern.many isSpace (spaces ++ (remark comment ++ (nl ++ rest))) =
      some (spaces, remark comment ++ (nl ++ rest)) := by
    rw [Pattern.many, List.takeWhile_append_of_pos hs, List.dropWhile_append_of_pos hs, remark,
      List.cons_append, List.takeWhile_cons_of_neg (by decide),
      List.dropWhile_cons_of_neg (by decide), List.append_nil]
  have hblock : Pattern.blockComment (spaces ++ (remark comment ++ (nl ++ rest))) = none := by
    have hmark : Pattern.literal ['%', '%', '*'] (remark comment ++ (nl ++ rest)) = none := rfl
    simp [Pattern.blockComment, Pattern.seq, hspaces, hmark]
  have hline : Pattern.lineComment (spaces ++ (remark comment ++ (nl ++ rest))) =
      some (spaces ++ remark comment, nl ++ rest) := by
    refine Pattern.seq_eq_some_iff.2 ⟨spaces, _, _, hspaces, ?_, rfl⟩
    exact Pattern.seq_eq_some_iff.2 ⟨_, _, _, rfl, many_remark hc hn rest, rfl⟩
  rw [match?_eq_of_begun hd, ha, Shape.first?, Shape.base, List.cons_append, List.findSome?_cons,
    Shape.match?_of_none hblock, List.cons_append, List.findSome?_cons, Seam.match?_lineComment hline]

theorem match?_lineBreak (hn : nl ∈ lineBreaks) (hd : d.Begun) (ha : d.after = nl ++ rest) :
    k.grammar.lexicon.match? d = some ⟨.newline, nl, rest⟩ := by
  rw [match?_eq_of_begun hd, ha]
  simp only [lineBreaks, List.mem_cons, List.not_mem_nil, or_false] at hn
  rcases hn with rfl | rfl <;> rfl

theorem text_of_newline {m : Match} (h : k.grammar.lexicon.match? c = some m)
    (hk : m.kind = .newline) : m.text ∈ lineBreaks := by
  have hp : Pattern.lineEnd c.after = some (m.text, m.rest) :=
    eq_of_match? h (congrArg Token.Kind.pattern? hk)
  rw [Pattern.lineEnd, Pattern.alt] at hp
  split at hp
  · rename_i p hlit
    rw [hp] at hlit
    rw [(Pattern.literal_eq_some_iff.1 hlit).1]
    decide
  · rw [(Pattern.literal_eq_some_iff.1 hp).1]
    decide

theorem exists_walks_of_newline {text : String} {tree : Diagram} {t : Token}
    {before after : List Char} (h : k.parse text = .ok tree)
    (ht : t ∈ (k.grammar.lexicon.tokenize text.toList).tokens) (hk : t.kind = .newline)
    (hs : text.toList = before ++ t.text.toList ++ after) (hb : byteSize before = t.span.start) :
    ∃ ts us c',
      (k.grammar.lexicon.tokenize text.toList).tokens = ts ++ t :: us ∧
      k.grammar.lexicon.Walks (.start text.toList) ts [] ⟨before.reverse, t.text.toList ++ after⟩ ∧
      k.grammar.lexicon.Walks ⟨before.reverse, t.text.toList ++ after⟩ (t :: us) [] c' ∧
      k.grammar.lexicon.Walks ⟨t.text.toList.reverse ++ before.reverse, after⟩ us [] c' ∧
      c'.after = [] ∧ t.text.toList ∈ lineBreaks := by
  obtain ⟨c', hend, hw⟩ := k.grammar.lexicon.walks_scan (.start text.toList)
  have he : (k.grammar.lexicon.scan (.start text.toList)).errors = [] := (parse_eq_ok_iff.1 h).1
  rw [he] at hw
  obtain ⟨c₁, m, ts, us, hm, hh, rfl, hts, h₁, h₂⟩ := hw.exists_match ht
  have htext : (Lexicon.token m.kind c₁ m.text).text.toList = m.text := String.toList_ofList
  rw [htext] at hs ⊢
  have hc₁ : c₁ = ⟨before.reverse, m.text ++ after⟩ := by
    refine Cursor.eq_of_text_of_offset (h₁.text_eq.trans ?_) ?_
    · simp [Cursor.text, Cursor.start, hs]
    · simp [Cursor.offset, hb, Lexicon.token]
  subst hc₁
  have hrest : m.rest = after :=
    (List.append_cancel_left (Lexicon.after_eq_of_match? hm).1).symm
  have h₁₂ := Lexicon.Walks.take hm hh h₂
  rw [Cursor.past, hrest] at h₂
  exact ⟨ts, us, c', hts, h₁, h₁₂, h₂, hend, text_of_newline hm hk⟩

theorem begun_of_beside {S : Seam} {before : List Char}
    (hw : k.grammar.lexicon.Walks (.start (before ++ S.whole)) ts [] d) (hd : S.Beside d)
    (hb : ∃ c ∈ before, isBlank c = false) : d.Begun := by
  obtain ⟨cs, hcs⟩ := hd.suffix
  have htext : d.before.reverse ++ d.after = before ++ cs ++ d.after := by
    rw [List.append_assoc, hcs]
    exact hw.text_eq
  have hbefore := List.append_cancel_right htext
  obtain ⟨c, hc, hblank⟩ := hb
  refine List.all_eq_false.2 ⟨c, ?_, by simp [hblank]⟩
  rw [← List.mem_reverse, hbefore]
  exact List.mem_append_left _ hc

theorem exists_walk_beforeEnd (hc : Plain comment) (hn : nl ∈ lineBreaks) (hd : d.Begun)
    (h : (Seam.beforeEnd hc hn rest).Beside d) :
    ∃ d', k.grammar.lexicon.Walks d [] [] d' ∧ d'.after = nl ++ rest ∧ d'.Begun := by
  have hpast (spaces : List Char) (hs : ∀ c ∈ spaces, isSpace c = true)
      (ha : d.after = spaces ++ (remark comment ++ (nl ++ rest))) :
      ∃ d', k.grammar.lexicon.Walks d [] [] d' ∧ d'.after = nl ++ rest ∧ d'.Begun :=
    ⟨_, .skip (match?_remark hc hn spaces hs hd ha) rfl (.done _), rfl, hd.past _ _⟩
  rcases h with h | h | h
  · exact hpast [' '] (by simp [isSpace]) h
  · exact hpast [] (by simp) h
  · exact ⟨d, .done d, h.trans (Seam.afterLine_beforeEnd hc hn rest), hd⟩

theorem exists_walk_afterEnd (hc : Plain comment) (hn : nl ∈ lineBreaks) (hd : d.Begun)
    (h : (Seam.afterEnd hc hn rest).Beside d) :
    ∃ u u' d', k.grammar.lexicon.Walks d [u, u'] [] d' ∧ u.isNewline = true ∧
      u'.isNewline = true ∧ d'.after = rest ∧ d'.Begun := by
  have ha : d.after = nl ++ (remark comment ++ (['\n'] ++ rest)) := by
    rcases h with h | h | h
    · exact h
    · exact h
    · exact h.trans (Seam.afterLine_afterEnd hc hn rest)
  have hnl : ['\n'] ∈ lineBreaks := by decide
  have hd₁ : (d.past nl (remark comment ++ (['\n'] ++ rest))).Begun := hd.past _ _
  have hd₂ := hd₁.past (remark comment) (['\n'] ++ rest)
  have hw : k.grammar.lexicon.Walks _ _ [] _ := .take (match?_lineBreak hn hd ha) rfl
    (.skip (match?_remark hc hnl [] (by simp) hd₁ rfl) rfl
      (.take (match?_lineBreak hnl hd₂ rfl) rfl (.done _)))
  exact ⟨_, _, _, hw, rfl, rfl, rfl, hd₂.past _ _⟩

/-- A comment at a line end of an accepted text, before the line end or on a line of its own after
it, leaves the tree as it is, if something that is not blank stands before it. -/
theorem parse_comment (k : Kind) {before after comment : String} {t : Token} {tree : Diagram}
    (h : k.parse (before ++ t.text ++ after) = .ok tree)
    (ht : t ∈ (k.grammar.lexicon.tokenize (before ++ t.text ++ after).toList).tokens)
    (hk : t.kind = .newline) (hs : t.span.start = byteSize before.toList)
    (hb : ∃ c ∈ before.toList, isBlank c = false) (hc : Plain comment.toList) :
    k.parse (before ++ (" %% " ++ comment) ++ t.text ++ after) = .ok tree ∧
      k.parse (before ++ t.text ++ ("%% " ++ comment ++ "\n") ++ after) = .ok tree := by
  have htext : (before ++ t.text ++ after).toList =
      before.toList ++ t.text.toList ++ after.toList := by simp
  obtain ⟨ts, us, c', hts, h₁, h₁₂, h₂, hend, hn⟩ :=
    exists_walks_of_newline h ht hk htext hs.symm
  have hclear := k.clear_of_walks h₁ nofun
  have hbegun : Cursor.Begun ⟨before.toList.reverse, t.text.toList ++ after.toList⟩ := by
    obtain ⟨c, hc, hblank⟩ := hb
    exact List.all_eq_false.2 ⟨c, List.mem_reverse.2 hc, by simp [hblank]⟩
  rw [htext, List.append_assoc] at h₁
  -- Up to the seam the walks go alike, over the comment by its own rules, and from there on alike.
  constructor
  · obtain ⟨us₁, d₁, hw₁, ha₁, hd₁⟩ :=
      (Seam.beforeEnd hc hn after.toList).reaches_of_walks h₁ rfl rfl hclear
    have hbegun₁ := begun_of_beside hw₁ hd₁ hb
    obtain ⟨d₂, hw₂, hd₂, hbegun₂⟩ := exists_walk_beforeEnd hc hn hbegun₁ hd₁
    obtain ⟨us₃, d₃, hw₃, ha₃, hd₃⟩ := exists_walk_of_after h₁₂ hd₂ hbegun hbegun₂
    have hnew : (before ++ (" %% " ++ comment) ++ t.text ++ after).toList =
        before.toList ++ (Seam.beforeEnd hc hn after.toList).whole := by
      simp [Seam.whole, Seam.beforeEnd, remark]
    refine parse_of_walks h ?_ (hd₃.trans hend) (hts ▸ ha₁.append ha₃)
    rw [hnew]
    exact hw₁.trans (hw₂.trans hw₃)
  · obtain ⟨us₁, d₁, hw₁, ha₁, hd₁⟩ :=
      (Seam.afterEnd hc hn after.toList).reaches_of_walks h₁ rfl rfl hclear
    have hbegun₁ := begun_of_beside hw₁ hd₁ hb
    obtain ⟨u, u', d₂, hw₂, hu, hu', hd₂, hbegun₂⟩ := exists_walk_afterEnd hc hn hbegun₁ hd₁
    obtain ⟨us₃, d₃, hw₃, ha₃, hd₃⟩ := exists_walk_of_after h₂ hd₂ (hbegun.past _ _) hbegun₂
    have hnew : (before ++ t.text ++ ("%% " ++ comment ++ "\n") ++ after).toList =
        before.toList ++ (Seam.afterEnd hc hn after.toList).whole := by
      simp [Seam.whole, Seam.afterEnd, remark]
    have hnl : t.isNewline = true := by simp [Token.isNewline, hk]
    refine parse_of_walks h ?_ (hd₃.trans hend) (hts ▸ ha₁.append (.newline hnl hu hu' ha₃))
    rw [hnew]
    exact hw₁.trans (hw₂.trans hw₃)

def titleEnd : Token :=
  ⟨.newline, "\n", ⟨21, 22⟩⟩

def titledTimeline : Diagram :=
  .timeline { sections := [⟨none, [⟨"2021", ["x"]⟩]⟩], annotations := { title := some "Some" } }

theorem parse_comment_titled :
    timeline.parse ("timeline\n  title Some" ++ titleEnd.text ++ "2021 : x") = .ok titledTimeline ∧
      timeline.parse ("timeline\n  title Some" ++ (" %% " ++ "note") ++ titleEnd.text ++
        "2021 : x") = .ok titledTimeline ∧
      timeline.parse ("timeline\n  title Some" ++ titleEnd.text ++ ("%% " ++ "note" ++ "\n") ++
        "2021 : x") = .ok titledTimeline := by
  have h : timeline.parse ("timeline\n  title Some" ++ titleEnd.text ++ "2021 : x") =
      .ok titledTimeline := parse_eq_ok_of_toOption (by decide +kernel)
  exact ⟨h, parse_comment .timeline h (by decide +kernel) rfl (by decide)
    ⟨'t', by decide, by decide⟩ (by simp [Plain])⟩

end Kind

end DiagramText
