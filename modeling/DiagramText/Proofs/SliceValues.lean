import DiagramText.Proofs.Alike
import DiagramText.Proofs.SliceScan
import DiagramText.Proofs.Written

namespace DiagramText

open Text (IsBoundary byteSize isBlank slice sliceFrom startsWith trim trimStart)

/-- The token begins with the keyword its reader cuts off, or stands in quotes. -/
def Token.Kind.Opens (kind : Token.Kind) (text : List Char) : Prop :=
  match kind with
  | .title => startsWith "title".toList text
  | .accDescr => startsWith "accDescr".toList text
  | .string => ∃ quote ∈ ['"', '\''], ∃ inner, text = [quote] ++ (inner ++ [quote])
  | _ => True

namespace Reader

def sliceTitleText (cs : List Char) : Sliced (List Char) := do
  let rest ← sliceFrom cs "title".utf8ByteSize
  pure (trim rest)

def sliceDescriptionText (cs : List Char) : Sliced (List Char) := do
  let body ← sliceFrom cs "accDescr".utf8ByteSize
  let trimmed := trimStart body
  if startsWith [':'] trimmed then pure (afterColon body)
  else pure (trimmedLines (Text.dropWhileEnd (· = '\x7d') (trimmed.dropWhile (· = '\x7b'))))

def isQuotedBy (quote : Char) (cs : List Char) : Bool :=
  startsWith [quote] cs && startsWith [quote] cs.reverse

def sliceUnquoted (cs : List Char) : Sliced (List Char) :=
  if 2 ≤ byteSize cs ∧ (isQuotedBy '"' cs || isQuotedBy '\'' cs) then
    slice cs 1 (byteSize cs - 1)
  else pure cs

/-- The reader, with the slices of its conversions checked. The other kinds are converted without
slices. -/
def sliced (read : Reader) (t : Token) : Sliced (Except Fault Value) :=
  let cs := t.text.toList
  match t.kind with
  | .title => do
    let text ← sliceTitleText cs
    pure (.ok (.ofChars text))
  | .accDescr => do
    let text ← sliceDescriptionText cs
    pure (.ok (.ofChars text))
  | .string => do
    let text ← sliceUnquoted cs
    pure (.ok (.ofChars text))
  | _ => pure (read t)

def all : List Reader :=
  [common, Grammar.Sankey.reader, Grammar.Timeline.reader, Grammar.Architecture.reader]

theorem sliceTitleText_eq {cs : List Char} (h : Token.Kind.title.Opens cs) :
    sliceTitleText cs = .ok (titleText cs) := by
  obtain ⟨rest, hr⟩ := Option.isSome_iff_exists.1 h
  obtain rfl := Text.after?_eq_some_iff.1 hr
  have hsize : "title".utf8ByteSize = byteSize "title".toList := rfl
  rw [sliceTitleText, titleText, hsize, Text.sliceFrom_append, Text.dropBytes_append]
  rfl

theorem afterColon_trimStart (cs : List Char) : afterColon (trimStart cs) = afterColon cs := by
  have hdrop : (trimStart cs).dropWhile (· ≠ ':') = cs.dropWhile (· ≠ ':') := by
    induction cs with
    | nil => rfl
    | cons c cs ih =>
      rw [trimStart, List.dropWhile_cons]
      split
      · rename_i hc
        have hne : c ≠ ':' := by
          rintro rfl
          exact absurd hc (by decide)
        rw [List.dropWhile_cons_of_pos (by simpa using hne)]
        exact ih
      · rfl
  rw [afterColon, afterColon, hdrop]

theorem sliceDescriptionText_eq {cs : List Char} (h : Token.Kind.accDescr.Opens cs) :
    sliceDescriptionText cs = .ok (descriptionText cs) := by
  obtain ⟨rest, hr⟩ := Option.isSome_iff_exists.1 h
  obtain rfl := Text.after?_eq_some_iff.1 hr
  have hsize : "accDescr".utf8ByteSize = byteSize "accDescr".toList := rfl
  rw [sliceDescriptionText, descriptionText, hsize, Text.sliceFrom_append, Text.dropBytes_append,
    Sliced.ok_bind, afterColon_trimStart]
  dsimp only
  split <;> rfl

theorem slice_quoted (quote : Char) (h : quote.utf8Size = 1) (inner : List Char) :
    let cs := [quote] ++ (inner ++ [quote])
    2 ≤ byteSize cs ∧ slice cs 1 (byteSize cs - 1) = .ok inner := by
  have hslice := Cursor.slice_text (c := ⟨[quote], inner ++ [quote]⟩) rfl
  have hone : Cursor.offset ⟨[quote], inner ++ [quote]⟩ = 1 := by simp [Cursor.offset, h]
  have hsize : byteSize ([quote] ++ (inner ++ [quote])) = 1 + byteSize inner + 1 := by
    simp [h, Nat.add_assoc]
  rw [hone] at hslice
  dsimp only
  rw [hsize, Nat.add_sub_cancel]
  exact ⟨by omega, hslice⟩

theorem sliceUnquoted_eq {cs : List Char} (h : Token.Kind.string.Opens cs) :
    sliceUnquoted cs = .ok (unquoted cs) := by
  obtain ⟨quote, hquote, inner, rfl⟩ := h
  simp only [List.mem_cons, List.not_mem_nil, or_false] at hquote
  have hpair := Text.between?_eq [quote] inner [quote]
  have hquoted : isQuotedBy quote ([quote] ++ (inner ++ [quote])) = true := by
    simp [isQuotedBy, startsWith, Text.after?]
  rcases hquote with rfl | rfl
  · have hslice := slice_quoted '"' rfl inner
    rw [sliceUnquoted, if_pos ⟨hslice.1, by rw [hquoted]; rfl⟩, hslice.2, unquoted, hpair]
    rfl
  · have hslice := slice_quoted '\'' rfl inner
    have hother : Text.between? ['"'] ['"'] (['\''] ++ (inner ++ ['\''])) = none := rfl
    rw [sliceUnquoted, if_pos ⟨hslice.1, by rw [hquoted, Bool.or_true]⟩, hslice.2, unquoted, hother,
      hpair]
    rfl

theorem sliced_eq {read : Reader} (hread : read ∈ all) {t : Token}
    (h : t.kind.Opens t.text.toList) : read.sliced t = .ok (read t) := by
  -- Titles, descriptions and strings are left to the common reader by all others.
  have hcommon : t.kind = .title ∨ t.kind = .accDescr ∨ t.kind = .string → read t = common t := by
    intro hk
    simp only [all, List.mem_cons, List.not_mem_nil, or_false] at hread
    rcases hread with rfl | rfl | rfl | rfl
    · rfl
    all_goals
      rcases hk with hk | hk | hk <;>
        simp [Grammar.Sankey.reader, Grammar.Timeline.reader, Grammar.Architecture.reader, hk]
  rw [sliced]
  split
  · rename_i hk
    rw [hk] at h
    rw [sliceTitleText_eq h, hcommon (.inl hk), common, hk]
    rfl
  · rename_i hk
    rw [hk] at h
    rw [sliceDescriptionText_eq h, hcommon (.inr (.inl hk)), common, hk]
    rfl
  · rename_i hk
    rw [hk] at h
    rw [sliceUnquoted_eq h, hcommon (.inr (.inr hk)), common, hk]
    rfl
  · rfl

end Reader

namespace Pattern

variable {cs taken rest : List Char}

theorem startsWith_of_literal_seq {word : List Char} {q : Pattern}
    (h : (literal word).seq q cs = some (taken, rest)) : startsWith word taken := by
  obtain ⟨a, mid, b, ha, -, rfl⟩ := seq_eq_some_iff.1 h
  obtain ⟨rfl, -⟩ := literal_eq_some_iff.1 ha
  exact Option.isSome_iff_exists.2 ⟨b, Text.after?_eq_some_iff.2 rfl⟩

theorem opens_title (h : title cs = some (taken, rest)) : Token.Kind.title.Opens taken := by
  rw [title, whenRest_eq_seq_ahead, seq_assoc] at h
  exact startsWith_of_literal_seq h

theorem opens_accDescr (h : accDescr cs = some (taken, rest)) :
    Token.Kind.accDescr.Opens taken := by
  rw [accDescr, labelled, seq_alt_seq] at h
  exact startsWith_of_literal_seq h

theorem eq_of_quoted {quote : Char} (h : quoted quote cs = some (taken, rest)) :
    ∃ inner, taken = [quote] ++ (inner ++ [quote]) := by
  obtain ⟨a, mid, b, ha, hb, rfl⟩ := seq_eq_some_iff.1 h
  obtain ⟨inner, mid', b', -, hb', rfl⟩ := seq_eq_some_iff.1 hb
  obtain ⟨rfl, -⟩ := literal_eq_some_iff.1 ha
  obtain ⟨rfl, -⟩ := literal_eq_some_iff.1 hb'
  exact ⟨inner, rfl⟩

theorem opens_string (h : string cs = some (taken, rest)) : Token.Kind.string.Opens taken := by
  rw [string, Pattern.alt] at h
  cases hq : quoted '"' cs with
  | some r =>
    rw [hq] at h
    cases h
    exact ⟨'"', by simp, eq_of_quoted hq⟩
  | none =>
    rw [hq] at h
    exact ⟨'\'', by simp, eq_of_quoted h⟩

end Pattern

theorem Kind.opens_of_match? {k : Kind} {c : Cursor} {m : Match}
    (h : k.grammar.lexicon.match? c = some m) : m.kind.Opens m.text := by
  cases hk : m.kind with
  | title => exact Pattern.opens_title (eq_of_match? h (congrArg Token.Kind.pattern? hk))
  | accDescr => exact Pattern.opens_accDescr (eq_of_match? h (congrArg Token.Kind.pattern? hk))
  | string => exact Pattern.opens_string (eq_of_match? h (congrArg Token.Kind.pattern? hk))
  | _ => trivial

theorem Lexicon.Walks.forall_tokens {l : Lexicon} {c c' : Cursor} {ts : List Token}
    {es : List Diagnostic} {P : Token.Kind → List Char → Prop} (h : Walks l c ts es c')
    (hm : ∀ c m, l.match? c = some m → P m.kind m.text) (hi : ∀ cs, P .invalid cs) :
    ∀ t ∈ ts, P t.kind t.text.toList := by
  induction h with
  | done c => simp
  | skip _ _ _ ih => exact ih
  | @take c c' m ts es hmatch _ _ ih =>
    refine List.forall_mem_cons.2 ⟨?_, ih⟩
    rw [token, String.toList_ofList]
    exact hm c m hmatch
  | giveUp _ _ _ ih => exact List.forall_mem_cons.2 ⟨hi _, ih⟩

theorem Kind.opens_of_mem_tokens (k : Kind) (text : List Char) :
    ∀ t ∈ (k.grammar.lexicon.tokenize text).tokens, t.kind.Opens t.text.toList := by
  obtain ⟨c', -, hw⟩ := k.grammar.lexicon.walks_scan (.start text)
  exact hw.forall_tokens (P := Token.Kind.Opens) (fun _ _ ↦ opens_of_match?) fun _ ↦ trivial

namespace SliceMatcher

open Text (closingQuote freeTextEnd skip)

/-- Handed a boundary, the matcher takes no bad slice, and if it matches it stops at a boundary
further on, not past the end. -/
def Sound (m : SliceMatcher) (text : List Char) : Prop :=
  ∀ start, IsBoundary text start → ∃ stop?, m text start = .ok stop? ∧
    ∀ stop ∈ stop?, start ≤ stop ∧ stop ≤ byteSize text ∧ IsBoundary text stop

theorem boundary_past {c : Cursor} {taken rest : List Char} (h : c.after = taken ++ rest) :
    c.offset ≤ c.offset + byteSize taken ∧ c.offset + byteSize taken ≤ byteSize c.text ∧
      IsBoundary c.text (c.offset + byteSize taken) := by
  have hplace := (c.past taken rest).isBoundary_offset
  rw [Cursor.text_past h, Cursor.offset_past] at hplace
  exact ⟨Nat.le_add_right _ _, hplace.le, hplace⟩

theorem Follows.sound {m : SliceMatcher} {p : Pattern} (h : m.Follows p) (text : List Char) :
    m.Sound text := by
  intro start hstart
  obtain ⟨c, rfl, rfl⟩ := Text.isBoundary_iff.1 hstart
  refine ⟨_, h.eq_ok c, fun stop hstop ↦ ?_⟩
  obtain ⟨r, hr, rfl⟩ := Option.map_eq_some_iff.1 hstop
  exact boundary_past (h.splits _ _ _ hr)

theorem sound_directive (text : List Char) : directive.Sound text := by
  intro start hstart
  obtain ⟨stop?, hstop, hplaces⟩ := (follows_anchored Pattern.splits_directive).sound text start hstart
  obtain ⟨c, rfl, rfl⟩ := Text.isBoundary_iff.1 hstart
  rw [directive, Cursor.sliceTo_text, Sliced.ok_bind]
  split
  · exact ⟨stop?, hstop, hplaces⟩
  · exact ⟨none, rfl, by simp⟩

theorem sound_closingQuote (field : List Char) : Sound closingQuote field := by
  intro start hstart
  obtain ⟨d, rfl, rfl⟩ := Text.isBoundary_iff.1 hstart
  refine ⟨_, closingQuote_text rfl, fun stop hstop ↦ ?_⟩
  obtain ⟨r, hr, rfl⟩ := Option.map_eq_some_iff.1 hstop
  obtain ⟨inner, hinner⟩ := quotedRest_eq_concat hr
  -- The place before the closing quote.
  have hafter : d.after = inner ++ ('"' :: r.2) := by
    rw [Pattern.splits_quotedRest _ _ _ hr, hinner, List.append_assoc, List.singleton_append]
  have hsize : d.offset + byteSize r.1 - 1 = d.offset + byteSize inner := by
    have hone : '"'.utf8Size = 1 := rfl
    rw [hinner, Text.byteSize_append, Text.byteSize_cons, hone]
    rfl
  rw [hsize]
  exact boundary_past hafter

end SliceMatcher

open SliceMatcher Text in
/-- No slice is a bad one while a text is parsed. A scan over byte offsets, runs that are given up
and their diagnostics included, finds what the scan from cursor to cursor finds. Each matcher, and
each search that matchers are made of, stops at a boundary when handed one. Every token is
converted, as what its conversion cuts off is there. -/
theorem Kind.no_bad_slice (k : Kind) (text : String) :
    k.sliceLexicon.tokenize text.toList = .ok (k.grammar.lexicon.tokenize text.toList) ∧
      (∀ r ∈ k.sliceLexicon, r.matcher.Sound text.toList) ∧
      (∀ stops, (total (freeTextEnd stops)).Sound text.toList) ∧
      (total (skip Pattern.isSpace)).Sound text.toList ∧
      braces.Sound text.toList ∧ (∀ field, Sound closingQuote field) ∧
      ∀ t ∈ (k.grammar.lexicon.tokenize text.toList).tokens,
        t.kind.Opens t.text.toList ∧ ∀ read ∈ Reader.all, read.sliced t = .ok (read t) := by
  refine ⟨k.sliceLexicon_tokenize _, ?_, fun _ ↦ (follows_freeTextEnd _).sound _,
    (follows_skip _).sound _, follows_braces.sound _, sound_closingQuote, fun t ht ↦ ?_⟩
  · refine List.forall_mem_cons.2 ⟨sound_directive _, ?_⟩
    rw [List.forall_mem_map]
    intro s hs
    obtain ⟨p, hp, -⟩ := Shape.followed k s hs
    exact hp.sound _
  · have hopens := k.opens_of_mem_tokens _ t ht
    exact ⟨hopens, fun read hread ↦ Reader.sliced_eq hread hopens⟩

end DiagramText
