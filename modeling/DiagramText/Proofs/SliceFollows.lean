import DiagramText.Proofs.SliceMatchers
import Mathlib.Tactic.SplitIfs

namespace DiagramText

open Text (byteSize bytes find? isBlank isBreak sliceFrom startsWith)
open Pattern (commentMark isSpace)

namespace SliceMatcher

open Text (blanksEnd closingQuote freeTextEnd skip trim)

theorem skip_text (p : Char → Bool) (c : Cursor) :
    skip p c.text c.offset = .ok (c.offset + byteSize (c.after.takeWhile p)) := by
  have hsize : byteSize c.after = byteSize (c.after.takeWhile p) + byteSize (c.after.dropWhile p) := by
    rw [← Text.byteSize_append, List.takeWhile_append_dropWhile]
  rw [skip, Cursor.sliceFrom_text, Sliced.ok_bind, hsize, Nat.add_sub_cancel]
  rfl

theorem follows_skip (p : Char → Bool) : (total (skip p)).Follows (Pattern.many p) where
  splits := Pattern.splits_many p
  eq_ok c := by
    rw [total, skip_text]
    rfl

/-- A comment mark begins a text just where it begins the part before the stops, as it begins with
a character that is none. -/
theorem startsWith_commentMark_takeWhile {p : Char → Bool} {c : Char} (hc : p c = true)
    (cs : List Char) :
    startsWith commentMark (c :: cs.takeWhile p) = startsWith commentMark (c :: cs) := by
  by_cases h : '%' = c
  · subst h
    cases cs with
    | nil => rfl
    | cons d ds =>
      by_cases hd : '%' = d
      · subst hd
        simp [startsWith, commentMark, Text.after?, hc]
      · cases hp : p d <;> simp [startsWith, commentMark, Text.after?, hd, hp]
  · simp [startsWith, commentMark, Text.after?, h]

def beforeStop (stops cs : List Char) : List Char :=
  cs.takeWhile fun c ↦ !(isBreak c || stops.contains c)

theorem byteSize_freeText (stops : List Char) (cs : List Char) :
    ∃ taken rest, Pattern.freeText stops cs = some (taken, rest) ∧
      byteSize taken =
        (find? commentMark (beforeStop stops cs)).getD (byteSize (beforeStop stops cs)) := by
  induction cs with
  | nil => exact ⟨[], [], rfl, rfl⟩
  | cons c cs ih =>
    rw [Pattern.freeText]
    cases hc : isBreak c || stops.contains c with
    | true => exact ⟨[], c :: cs, rfl, by rw [beforeStop, List.takeWhile_cons, hc]; rfl⟩
    | false =>
      have hline : beforeStop stops (c :: cs) = c :: beforeStop stops cs := by
        rw [beforeStop, List.takeWhile_cons, hc]
        rfl
      have hmark : startsWith commentMark (c :: beforeStop stops cs) =
          startsWith commentMark (c :: cs) :=
        startsWith_commentMark_takeWhile (by rw [hc]; rfl) cs
      rw [hline, Text.find?_cons, hmark, Bool.false_or]
      obtain ⟨taken, rest, ht, hsize⟩ := ih
      cases startsWith commentMark (c :: cs) with
      | true => exact ⟨[], c :: cs, rfl, rfl⟩
      | false =>
        refine ⟨c :: taken, rest, by rw [ht]; rfl, ?_⟩
        rw [Text.byteSize_cons, hsize, Text.byteSize_cons]
        cases find? commentMark (beforeStop stops cs) <;> rfl

theorem freeTextEnd_text (stops : List Char) (c : Cursor) :
    ∃ taken rest, Pattern.freeText stops c.after = some (taken, rest) ∧
      freeTextEnd stops c.text c.offset = .ok (c.offset + byteSize taken) := by
  obtain ⟨taken, rest, hp, hsize⟩ := byteSize_freeText stops c.after
  refine ⟨taken, rest, hp, ?_⟩
  rw [freeTextEnd, Cursor.sliceFrom_text, Sliced.ok_bind, Text.findChar?_getD]
  simp only [Text.sliceTo_takeWhile, Sliced.ok_bind, Sliced.pure_eq_ok]
  rw [hsize]
  rfl

theorem follows_freeTextEnd (stops : List Char) :
    (total (freeTextEnd stops)).Follows (Pattern.freeText stops) where
  splits := Pattern.splits_freeText stops
  eq_ok c := by
    obtain ⟨taken, rest, hp, hstop⟩ := freeTextEnd_text stops c
    rw [total, hstop, hp]
    rfl

theorem follows_colonText :
    colonText.Follows
      ((Pattern.many isSpace).seq ((Pattern.literal [':']).seq (Pattern.freeText []))) :=
  (follows_skip _).seq ((follows_mark _).seq (follows_freeTextEnd _))

theorem follows_accTitle : accTitle.Follows Pattern.accTitle :=
  (follows_word _).seq follows_colonText

theorem follows_sectionTitle : sectionTitle.Follows Pattern.sectionTitle := by
  rw [Pattern.sectionTitle, ← Pattern.nonempty_many]
  exact (follows_word _).seq ((follows_skip _).moving.seq (follows_freeTextEnd _).moving)

theorem follows_periodTitle : periodTitle.Follows Pattern.periodTitle :=
  (follows_freeTextEnd _).moving

theorem follows_periodEvent : periodEvent.Follows Pattern.periodEvent :=
  (follows_word _).seq ((follows_skip _).seq (follows_freeTextEnd _).moving)

def endsTitle (rest : List Char) : Bool :=
  rest.head?.all (fun c ↦ isBreak c || isSpace c) || startsWith commentMark rest

theorem follows_titleRest : titleRest.Follows ((Pattern.ahead endsTitle).seq (Pattern.freeText [])) where
  splits := (Pattern.splits_ahead _).seq (Pattern.splits_freeText _)
  eq_ok c := by
    have hfree := (follows_freeTextEnd []).eq_ok c
    rw [titleRest, Cursor.sliceFrom_text, Sliced.ok_bind]
    cases ha : c.after with
    | nil => rfl
    | cons ch cs =>
      rw [ha] at hfree
      rw [List.head?_cons]
      dsimp only
      split_ifs with hb hs hm
      · simp [Pattern.seq, Pattern.ahead, endsTitle, Pattern.freeText, hb]
      · rw [hfree]
        simp [Pattern.seq, Pattern.ahead, endsTitle, hs]
      · simp [Pattern.seq, Pattern.ahead, endsTitle, Pattern.freeText, hm]
      · simp [Pattern.seq, Pattern.ahead, endsTitle, hb, hs, hm]

theorem follows_title : title.Follows Pattern.title := by
  have hp : Pattern.title = (Pattern.literal "title".toList).seq
      ((Pattern.ahead endsTitle).seq (Pattern.freeText [])) := by
    rw [← Pattern.seq_assoc, ← Pattern.whenRest_eq_seq_ahead]
    rfl
  rw [hp]
  exact (follows_word _).seq follows_titleRest

theorem follows_braces : braces.Follows
    ((Pattern.literal ['\x7b']).seq (Pattern.through ['\x7d'])) where
  splits := (Pattern.splits_literal _).seq (Pattern.splits_through _)
  eq_ok c := by
    rw [braces, Cursor.sliceFrom_text, Sliced.ok_bind, Pattern.seq, Pattern.literal]
    cases h : Text.after? ['\x7b'] c.after with
    | none => simp [startsWith, h]
    | some rest =>
      -- The search begins at the opening brace, which is no closing one.
      have hfind : find? ['\x7d'] c.after = (find? ['\x7d'] rest).map (1 + ·) := by
        rw [Text.after?_eq_some_iff.1 h]
        exact Text.find?_cons _ _ _
      simp only [startsWith, h, Option.isSome_some, if_true, Sliced.ok_bind, Sliced.pure_eq_ok,
        Pattern.through]
      rw [hfind, find?]
      cases hcut : Text.cut? ['\x7d'] rest with
      | none => simp [hcut]
      | some p =>
        have hopen : '\x7b'.utf8Size = 1 := rfl
        have hclose : '\x7d'.utf8Size = 1 := rfl
        simp [hcut, hopen, hclose, Nat.add_assoc]

theorem follows_accDescr : accDescr.Follows Pattern.accDescr := by
  rw [Pattern.accDescr, Pattern.labelled, Pattern.seq_alt_seq]
  exact (follows_word _).seq (follows_colonText.alt ((follows_skip _).seq follows_braces))

theorem follows_lineEndAhead : lineEndAhead.Follows (Pattern.ahead Pattern.endsLine) where
  splits := Pattern.splits_ahead _
  eq_ok c := by
    have hrest : sliceFrom c.text (c.offset + byteSize (c.after.takeWhile isSpace)) =
        .ok (c.after.dropWhile isSpace) := by
      have h := (c.past (c.after.takeWhile isSpace) (c.after.dropWhile isSpace)).sliceFrom_text
      rwa [Cursor.text_past List.takeWhile_append_dropWhile.symm, Cursor.offset_past] at h
    rw [lineEndAhead, skip_text, Sliced.ok_bind, hrest, Sliced.ok_bind, Pattern.ahead,
      Pattern.endsLine]
    split <;> rfl

theorem follows_sankeyValue : sankeyValue.Follows Pattern.sankeyValue.nonempty := by
  have hcomm (p : Pattern) (ok : List Char → Bool) :
      (p.whenRest ok).nonempty = p.nonempty.seq (Pattern.ahead ok) := by
    rw [← Pattern.whenRest_eq_seq_ahead]
    funext cs
    simp [Pattern.whenRest, Pattern.nonempty, Option.filter_filter, Bool.and_comm]
  rw [Pattern.sankeyValue, hcomm]
  exact (follows_anchored (Pattern.splits_digits.alt ((Pattern.splits_literal _).seq
    (Pattern.splits_digits.seq (Pattern.splits_literal _))))).seq follows_lineEndAhead

theorem closingQuote_cursor (d : Cursor) :
    closingQuote d.text d.offset =
      match find? ['"'] d.after with
      | none => .ok none
      | some n =>
        if (bytes d.text)[d.offset + n + 1]? = some '"'.toUInt8 then
          closingQuote d.text (d.offset + n + 2)
        else .ok (some (d.offset + n)) := by
  rw [closingQuote, Cursor.sliceFrom_text, Sliced.ok_bind]
  cases find? ['"'] d.after <;> rfl

theorem getElem?_bytes_past {d : Cursor} {c : Char} {cs : List Char} (h : d.after = c :: cs)
    (hc : c.utf8Size = 1) {a : Char} (ha : a.toNat ≤ 127) :
    (bytes d.text)[d.offset + 1]? = some a.toUInt8 ↔ cs.head? = some a := by
  have hbyte := (d.past [c] cs).getElem?_bytes_text_eq_some_iff ha
  rwa [Cursor.text_past h, Cursor.offset_past, Text.byteSize_cons, hc] at hbyte

theorem closingQuote_text {d : Cursor} {cs : List Char} (h : d.after = cs) :
    closingQuote d.text d.offset =
      .ok ((Pattern.quotedRest cs).map fun r ↦ d.offset + byteSize r.1 - 1) := by
  have hsize : '"'.utf8Size = 1 := rfl
  have hfound (cs : List Char) : find? ['"'] ('"' :: cs) = some 0 := rfl
  fun_induction Pattern.quotedRest cs generalizing d with
  | case1 cs ih =>
    have hnext := @ih (d.past ['"', '"'] cs) rfl
    rw [Cursor.text_past h, Cursor.offset_past] at hnext
    rw [closingQuote_cursor, h, hfound]
    dsimp only
    rw [Nat.add_zero, if_pos ((getElem?_bytes_past h rfl (by decide)).2 rfl)]
    refine hnext.trans ?_
    cases Pattern.quotedRest cs with
    | none => rfl
    | some r =>
      simp [hsize]
      omega
  | case2 cs hcs =>
    have hquote : ¬(bytes d.text)[d.offset + 1]? = some '"'.toUInt8 := by
      intro hq
      obtain ⟨tail, rfl⟩ := List.head?_eq_some_iff.1 ((getElem?_bytes_past h rfl (by decide)).1 hq)
      exact hcs tail rfl
    rw [closingQuote_cursor, h, hfound]
    simp [hquote, hsize]
  | case3 c cs _ hc ih =>
    -- The search steps over a character that is no quote.
    have hfind : find? ['"'] (c :: cs) = (find? ['"'] cs).map (c.utf8Size + ·) := by
      rw [Text.find?_cons, if_neg]
      simp [startsWith, Text.after?, Ne.symm hc]
    have hstep : closingQuote d.text d.offset =
        closingQuote (d.past [c] cs).text (d.past [c] cs).offset := by
      have hafter : (d.past [c] cs).after = cs := rfl
      rw [closingQuote_cursor, closingQuote_cursor, Cursor.text_past h, Cursor.offset_past, h, hafter,
        hfind]
      cases find? ['"'] cs <;> simp [Nat.add_assoc]
    rw [hstep, ih rfl]
    cases Pattern.quotedRest cs with
    | none => rfl
    | some r => simp [Nat.add_assoc]
  | case4 =>
    rw [closingQuote_cursor, h]
    rfl

theorem quotedRest_eq_concat {cs : List Char} {r : List Char × List Char}
    (h : Pattern.quotedRest cs = some r) : ∃ inner, r.1 = inner ++ ['"'] := by
  fun_induction Pattern.quotedRest cs generalizing r with
  | case1 cs ih =>
    obtain ⟨r, hr, rfl⟩ := Option.map_eq_some_iff.1 h
    obtain ⟨inner, hi⟩ := ih hr
    exact ⟨'"' :: '"' :: inner, by simp [hi]⟩
  | case2 cs =>
    obtain rfl := Option.some.inj h
    exact ⟨[], rfl⟩
  | case3 c cs _ _ ih =>
    obtain ⟨r, hr, rfl⟩ := Option.map_eq_some_iff.1 h
    obtain ⟨inner, hi⟩ := ih hr
    exact ⟨c :: inner, by simp [hi]⟩
  | case4 => cases h

theorem one_lt_byteSize_quotedRest {cs : List Char} {r : List Char × List Char}
    (h : Pattern.quotedRest cs = some r) : 1 < byteSize r.1 ↔ 1 < r.1.length := by
  obtain ⟨inner, hi⟩ := quotedRest_eq_concat h
  have hsize : '"'.utf8Size = 1 := rfl
  cases inner with
  | nil => simp [hi, hsize]
  | cons a inner =>
    have := a.utf8Size_pos
    simp [hi, hsize]
    omega

theorem follows_sankeyNode : sankeyNode.Follows Pattern.sankeyNode where
  splits := Pattern.splits_sankeyNode
  eq_ok c := by
    rw [sankeyNode, Cursor.from?_text, Pattern.sankeyNode]
    dsimp only
    split
    · rename_i hquote
      obtain ⟨cs, hcs⟩ := Option.isSome_iff_exists.1 hquote
      have hsize : '"'.utf8Size = 1 := rfl
      have hfield : closingQuote c.after 1 =
          .ok ((Pattern.quotedRest cs).map fun r ↦ 1 + byteSize r.1 - 1) := by
        rw [Text.after?_eq_some_iff.1 hcs]
        exact closingQuote_text (d := ⟨['"'], cs⟩) rfl
      rw [hfield, Sliced.ok_bind, Pattern.quotedField, Pattern.seq, Pattern.literal, hcs]
      cases hr : Pattern.quotedRest cs with
      | none => simp [hr]
      | some r =>
        by_cases hlen : 1 < r.1.length
        · simp [hr, Option.filter_some, one_lt_byteSize_quotedRest hr, hlen, hsize]
          omega
        · simp [hr, Option.filter_some, one_lt_byteSize_quotedRest hr, hlen, Nat.not_lt.1 hlen]
    · exact (follows_freeTextEnd [',']).moving.eq_ok c

theorem blank_byte_iff {c : Cursor} {ch : Char} {cs : List Char} (h : c.after = ch :: cs)
    (hlt : c.offset < (bytes c.text).length) :
    ((bytes c.text)[c.offset] = ' '.toUInt8 ∨ (bytes c.text)[c.offset] = '\t'.toUInt8 ∨
      (bytes c.text)[c.offset] = '\r'.toUInt8 ∧ (bytes c.text)[c.offset + 1]? ≠ some '\n'.toUInt8) ↔
      (isSpace ch || ch = '\r' && cs.head? ≠ some '\n') = true := by
  have hbyte {a : Char} (ha : a.toNat ≤ 127) :
      (bytes c.text)[c.offset] = a.toUInt8 ↔ ch = a := by
    rw [← Option.some.injEq, ← List.getElem?_eq_getElem hlt, c.getElem?_bytes_text_eq_some_iff ha, h,
      List.head?_cons, Option.some.injEq]
  rw [hbyte (by decide), hbyte (by decide), hbyte (by decide)]
  by_cases hr : ch = '\r'
  · subst hr
    rw [ne_eq, getElem?_bytes_past h rfl (by decide)]
    simp [isSpace]
  · simp [isSpace, hr]

theorem blanksEnd_text {c : Cursor} {cs : List Char} (h : c.after = cs) :
    ∃ taken rest, Pattern.blanks cs = some (taken, rest) ∧
      blanksEnd (bytes c.text) c.offset = c.offset + byteSize taken := by
  induction cs generalizing c with
  | nil =>
    have hend : ¬c.offset < (bytes c.text).length := by
      rw [Text.length_bytes, c.byteSize_text, h]
      exact Nat.lt_irrefl _
    exact ⟨[], [], rfl, by rw [blanksEnd, dif_neg hend]; rfl⟩
  | cons ch cs ih =>
    have hlt : c.offset < (bytes c.text).length := by
      have := ch.utf8Size_pos
      rw [Text.length_bytes, c.byteSize_text, h, Text.byteSize_cons]
      omega
    rw [blanksEnd, dif_pos hlt, Pattern.blanks]
    by_cases hb : (isSpace ch || ch = '\r' && cs.head? ≠ some '\n') = true
    · rw [if_pos hb, if_pos ((blank_byte_iff h hlt).2 hb)]
      have hone : ch.utf8Size = 1 := by
        simp only [isSpace, Bool.or_eq_true, Bool.and_eq_true, decide_eq_true_eq] at hb
        rcases hb with (rfl | rfl) | ⟨rfl, -⟩ <;> rfl
      obtain ⟨taken, rest, ht, hend⟩ := @ih (c.past [ch] cs) rfl
      rw [Cursor.text_past h, Cursor.offset_past, Text.byteSize_cons, hone] at hend
      refine ⟨ch :: taken, rest, by rw [ht]; rfl, hend.trans ?_⟩
      rw [Text.byteSize_cons, hone, Text.byteSize_nil, Nat.add_assoc]
    · rw [if_neg hb, if_neg (mt (blank_byte_iff h hlt).1 hb)]
      exact ⟨[], ch :: cs, rfl, rfl⟩

theorem follows_whitespace : whitespace.Follows Pattern.whitespace where
  splits := Pattern.splits_whitespace
  eq_ok c := by
    obtain ⟨taken, rest, ht, hend⟩ := blanksEnd_text (c := c) rfl
    rw [whitespace, Pattern.whitespace, Pattern.nonempty, ← filter_lt_map, ht, hend]
    simp [Option.filter_some]

theorem matcher_eq_map_nonempty (p : Pattern) (c : Cursor) :
    p.matcher c = (p.nonempty c.after).map fun r ↦ c.offset + byteSize r.1 := by
  rw [Pattern.matcher, Pattern.nonempty]
  cases p c.after with
  | none => rfl
  | some r =>
    obtain ⟨taken, rest⟩ := r
    cases taken <;> rfl

theorem directive_text (c : Cursor) : directive c.text c.offset = .ok (Matcher.directive c) := by
  have hblank : (trim c.before.reverse).isEmpty = c.before.all isBlank := by
    rw [Bool.eq_iff_iff, List.isEmpty_iff, Text.trim_eq_nil_iff, List.all_eq_true]
    simp
  rw [directive, Cursor.sliceTo_text, Sliced.ok_bind, hblank, Matcher.directive]
  split
  · rw [(follows_anchored Pattern.splits_directive).eq_ok, matcher_eq_map_nonempty]
  · rfl

end SliceMatcher

/-- The matcher of a shape. The shapes of free text have matchers of their own, all others have
their patterns. -/
def Shape.sliceMatcher (s : Shape) : SliceMatcher :=
  match s.kind with
  | .whitespace => .whitespace
  | .accDescr => .accDescr
  | .accTitle => .accTitle
  | .title => .title
  | .sankeyNode => .sankeyNode
  | .sankeyValue => .sankeyValue
  | .sectionTitle => .sectionTitle
  | .periodTitle => .periodTitle
  | .periodEvent => .periodEvent
  | _ => .anchored s.pattern

namespace Shape

open SliceMatcher

def scanned : List Shape :=
  [⟨.whitespace, Pattern.whitespace⟩, ⟨.accDescr, Pattern.accDescr⟩,
    ⟨.accTitle, Pattern.accTitle⟩, ⟨.title, Pattern.title⟩, ⟨.sankeyNode, Pattern.sankeyNode⟩,
    ⟨.sankeyValue, Pattern.sankeyValue⟩, ⟨.sectionTitle, Pattern.sectionTitle⟩,
    ⟨.periodTitle, Pattern.periodTitle⟩, ⟨.periodEvent, Pattern.periodEvent⟩]

/-- The matcher of the shape stops where its pattern does, where that takes anything. -/
def Followed (s : Shape) : Prop :=
  ∃ p : Pattern, s.sliceMatcher.Follows p ∧ p.nonempty = s.pattern.nonempty

theorem followed_scanned : ∀ s ∈ scanned, s.Followed := by
  simp only [scanned, List.forall_mem_cons]
  exact ⟨⟨_, follows_whitespace, rfl⟩, ⟨_, follows_accDescr, rfl⟩, ⟨_, follows_accTitle, rfl⟩,
    ⟨_, follows_title, rfl⟩, ⟨_, follows_sankeyNode, rfl⟩,
    ⟨_, follows_sankeyValue, Pattern.nonempty_nonempty _⟩, ⟨_, follows_sectionTitle, rfl⟩,
    ⟨_, follows_periodTitle, rfl⟩, ⟨_, follows_periodEvent, rfl⟩, by simp⟩

theorem scanned_or_anchored (k : Kind) :
    ∀ s ∈ base ++ k.shapes, s ∈ scanned ∨ s.sliceMatcher = anchored s.pattern := by
  cases k <;>
    simp [base, Kind.shapes, annotations, scanned, sliceMatcher, Shape.keyword, Shape.symbol]

theorem followed (k : Kind) : ∀ s ∈ base ++ k.shapes, s.Followed := by
  intro s hs
  rcases scanned_or_anchored k s hs with h | h
  · exact followed_scanned s h
  · have hsplits := List.forall_mem_append.2 ⟨splits_base, k.splits_shapes⟩ s hs
    exact ⟨_, h ▸ follows_anchored hsplits, Pattern.nonempty_nonempty _⟩

end Shape

end DiagramText