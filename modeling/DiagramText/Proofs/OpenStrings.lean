import DiagramText.Proofs.SankeyNames
import DiagramText.Proofs.UnmatchedRuns

namespace DiagramText

open Text (byteSize doubled isBreak)
open Lexicon (isQuote)
open Pattern (quoted quotedField quotedRest)

def Text.restOfLine (cs : List Char) : List Char :=
  cs.takeWhile fun c ↦ !isBreak c

open Text (restOfLine)

variable {q : Char} {cs : List Char}

/-- What is not next on the line is not next in the text. -/
theorem Text.exists_eq_append {front rest : List Char} (hline : restOfLine cs = front ++ rest)
    (hr : rest.head? ≠ some q) (hb : isBreak q = false) :
    ∃ rest', cs = front ++ rest' ∧ rest'.head? ≠ some q := by
  refine ⟨rest ++ cs.dropWhile fun c ↦ !isBreak c, ?_, ?_⟩
  · rw [← List.append_assoc, ← hline, restOfLine, List.takeWhile_append_dropWhile]
  · cases rest with
    | cons d rest => exact hr
    | nil =>
      intro hq
      have hbreak := List.head?_dropWhile_not (fun c ↦ !isBreak c) cs
      rw [List.nil_append] at hq
      simp [hq, hb] at hbreak

theorem Lexicon.eq_of_isQuote (h : isQuote q = true) : q = '"' ∨ q = '\'' := by
  simpa [isQuote] using h

namespace Pattern

theorem isSome_quoted (hq : isQuote q = true) (cs : List Char) :
    (quoted q (q :: cs)).isSome = true ↔ q ∈ restOfLine cs := by
  have hb : isBreak q = false := by
    rcases Lexicon.eq_of_isQuote hq with rfl | rfl <;> rfl
  have hrest : (quoted q (q :: cs)).isSome =
      (literal [q] (cs.dropWhile fun c ↦ !(c = q || isBreak c))).isSome := by
    simp [quoted, seq, literal, many, Text.after?]
  rw [hrest]
  clear hrest
  induction cs with
  | nil => simp [literal, Text.after?, restOfLine]
  | cons c cs ih =>
    by_cases hc : c = q
    · simp [hc, hb, literal, Text.after?, restOfLine]
    · cases hbreak : isBreak c with
      | true => simp [hc, Ne.symm hc, hbreak, literal, Text.after?, restOfLine]
      | false => simpa [hc, Ne.symm hc, hbreak, restOfLine] using ih

theorem isSome_string (hq : isQuote q = true) (cs : List Char) :
    (string (q :: cs)).isSome = true ↔ q ∈ restOfLine cs := by
  rw [string, isSome_alt, ← isSome_quoted hq]
  rcases Lexicon.eq_of_isQuote hq with rfl | rfl
  · have hother : quoted '\'' ('"' :: cs) = none := rfl
    simp [hother]
  · have hother : quoted '"' ('\'' :: cs) = none := rfl
    simp [hother]

theorem moves_string : Moves string :=
  ((moves_literal (by simp)).seq _).alt ((moves_literal (by simp)).seq _)

theorem exists_freeText_quote {stops : List Char} (hq : isQuote q = true) (hs : q ∉ stops)
    (cs : List Char) :
    ∃ taken rest, (freeText stops).nonempty (q :: cs) = some (q :: taken, rest) := by
  obtain ⟨⟨taken, rest⟩, ht⟩ := Option.isSome_iff_exists.1 (isSome_freeText stops cs)
  have hgo : (isBreak q || stops.contains q || Text.startsWith commentMark (q :: cs)) = false := by
    rcases Lexicon.eq_of_isQuote hq with rfl | rfl
    · simpa [hs] using ⟨rfl, rfl⟩
    · simpa [hs] using ⟨rfl, rfl⟩
  refine ⟨taken, rest, ?_⟩
  rw [nonempty, freeText, hgo, if_neg Bool.false_ne_true, ht]
  rfl

end Pattern

theorem Shape.isSome_first? {s : Shape} {ss : List Shape} {taken rest : List Char} (hs : s ∈ ss)
    (hp : s.pattern cs = some (q :: taken, rest)) : (first? ss cs).isSome = true := by
  have hm : s.match? cs = some ⟨s.kind, q :: taken, rest⟩ :=
    match?_eq_some_iff.2 ⟨rfl, hp, List.cons_ne_nil q taken⟩
  exact List.findSome?_isSome_iff.2 ⟨s, hs, Option.isSome_iff_exists.2 ⟨_, hm⟩⟩

theorem Shape.first?_of_only {pre post : List Shape} {s : Shape} (hpre : first? pre cs = none)
    (hpost : first? post cs = none) : first? (pre ++ s :: post) cs = s.match? cs := by
  rw [first?_append_of_none hpre]
  cases hs : s.match? cs with
  | none => rw [first?_cons_of_none hs, hpost]
  | some m => exact first?_cons_of_some hs

namespace Kind

variable {k : Kind} {c : Cursor}

theorem match?_of_quote (hq : isQuote q = true) (ha : c.after = q :: cs) :
    k.grammar.lexicon.match? c = Shape.first? k.shapes (q :: cs) := by
  have hnext :
      Shape.first? (Shape.base ++ k.shapes) (q :: cs) = Shape.first? k.shapes (q :: cs) := by
    rcases Lexicon.eq_of_isQuote hq with rfl | rfl
    · exact next?_of_solid rfl rfl (by decide) cs
    · exact next?_of_solid rfl rfl (by decide) cs
  have hdirective : Shape.directive.match? (q :: cs) = none := by
    rcases Lexicon.eq_of_isQuote hq with rfl | rfl <;> rfl
  rw [k.match?_eq_first?, ha, tried]
  split
  · rw [Shape.first?_cons_of_none hdirective, hnext]
  · exact hnext

theorem match?_of_unread (hk : k ∈ [.info, .architecture]) (hq : isQuote q = true)
    (ha : c.after = q :: cs) : k.grammar.lexicon.match? c = none := by
  rw [match?_of_quote hq ha]
  simp only [List.mem_cons, List.not_mem_nil, or_false] at hk
  rcases Lexicon.eq_of_isQuote hq with rfl | rfl
  · rcases hk with rfl | rfl <;> rfl
  · rcases hk with rfl | rfl <;> rfl

theorem isSome_match?_string (hk : k ∈ [.pie, .packet]) (hq : isQuote q = true)
    (ha : c.after = q :: cs) : (k.grammar.lexicon.match? c).isSome = true ↔ q ∈ restOfLine cs := by
  have hshapes : Shape.first? k.shapes (q :: cs) =
      (⟨.string, Pattern.string⟩ : Shape).match? (q :: cs) := by
    have hpie : Kind.pie.shapes = [.keyword .pie, .keyword .showData] ++ Shape.annotations ++
      [⟨.number, Pattern.number⟩] ++ ⟨.string, Pattern.string⟩ :: [.symbol .colon] := rfl
    have hpacket : Kind.packet.shapes = [.keyword .packetBeta, .keyword .packet] ++
      Shape.annotations ++ [⟨.number, Pattern.number⟩] ++ ⟨.string, Pattern.string⟩ ::
        [.symbol .colon, .symbol .minus, .symbol .plus] := rfl
    simp only [List.mem_cons, List.not_mem_nil, or_false] at hk
    rcases Lexicon.eq_of_isQuote hq with rfl | rfl
    · rcases hk with rfl | rfl
      · rw [hpie, Shape.first?_of_only rfl rfl]
      · rw [hpacket, Shape.first?_of_only rfl rfl]
    · rcases hk with rfl | rfl
      · rw [hpie, Shape.first?_of_only rfl rfl]
      · rw [hpacket, Shape.first?_of_only rfl rfl]
  rw [match?_of_quote hq ha, hshapes, Shape.isSome_match? Pattern.moves_string,
    Pattern.isSome_string hq]

/-- The quote is closed: the same quote follows on its line. In a field of a flow, two quotes in a
row are one that belongs to the field, and close nothing. -/
inductive Closes : Kind → Char → List Char → Prop
  | string {k : Kind} {q : Char} {line : List Char} : ¬(k = .sankey ∧ q = '"') → q ∈ line →
      Closes k q line
  | field {body rest : List Char} : rest.head? ≠ some '"' →
      Closes .sankey '"' (doubled '"' body ++ '"' :: rest)

/-- A string that no rule of the kind reads, though it is closed. -/
inductive Overlooks : Kind → Char → List Char → Prop
  | string {k : Kind} {q : Char} {line : List Char} : k ∈ [.info, .architecture] → q ∈ line →
      Overlooks k q line
  | emptyField {rest : List Char} : rest.head? ≠ some '"' → Overlooks .sankey '"' ('"' :: rest)

theorem Overlooks.closes {line : List Char} (h : k.Overlooks q line) : k.Closes q line := by
  cases h with
  | string hk hq =>
    refine .string ?_ hq
    rintro ⟨rfl, -⟩
    exact absurd hk (by decide)
  | @emptyField rest hr => exact @Closes.field [] rest hr

theorem isSome_match?_field {body rest : List Char} (hn : body ≠ []) (hr : rest.head? ≠ some '"')
    (hline : restOfLine cs = doubled '"' body ++ '"' :: rest) (ha : c.after = '"' :: cs) :
    (Kind.sankey.grammar.lexicon.match? c).isSome = true := by
  have hfield : restOfLine cs = (doubled '"' body ++ ['"']) ++ rest := by simpa using hline
  obtain ⟨rest', hcs, hr'⟩ := Text.exists_eq_append hfield hr rfl
  have hnode := Pattern.sankeyNode_doubled hn hr'
  have happ : doubled '"' body ++ '"' :: rest' = cs := by simpa using hcs.symm
  rw [happ] at hnode
  rw [match?_of_quote rfl ha]
  exact @Shape.isSome_first? _ _ ⟨.sankeyNode, Pattern.sankeyNode⟩ _ _ _ (by simp [shapes]) hnode

theorem match?_of_emptyField {rest : List Char} (hr : rest.head? ≠ some '"')
    (hline : restOfLine cs = '"' :: rest) (ha : c.after = '"' :: cs) :
    Kind.sankey.grammar.lexicon.match? c = none := by
  obtain ⟨rest', rfl, hr'⟩ := @Text.exists_eq_append '"' cs ['"'] rest hline hr rfl
  have hnode : Pattern.sankeyNode ('"' :: '"' :: rest') = none := by
    have hrest : quotedRest ('"' :: rest') = some (['"'], rest') :=
      Pattern.quotedRest_doubled hr' []
    have hseq : (Pattern.literal ['"']).seq quotedRest ('"' :: '"' :: rest') =
        some (['"', '"'], rest') := by
      simp [Pattern.seq, Pattern.literal, Text.after?, hrest]
    have hquote : Text.startsWith ['"'] ('"' :: '"' :: rest') = true := rfl
    rw [Pattern.sankeyNode, hquote, if_pos rfl, quotedField, hseq]
    rfl
  have hshapes : Kind.sankey.shapes = [.keyword .sankeyBeta, .keyword .sankey] ++
    Shape.annotations ++ [⟨.sankeyValue, Pattern.sankeyValue⟩] ++
      ⟨.sankeyNode, Pattern.sankeyNode⟩ :: [.symbol .comma] := rfl
  rw [match?_of_quote rfl ha, hshapes, Shape.first?_of_only rfl rfl, Shape.match?_of_none hnode]

theorem isSome_match?_timeline (hq : isQuote q = true) (ha : c.after = q :: cs) :
    (Kind.timeline.grammar.lexicon.match? c).isSome = true := by
  have hs : q ∉ [':'] := by
    rcases Lexicon.eq_of_isQuote hq with rfl | rfl <;> decide
  obtain ⟨taken, rest, hp⟩ := Pattern.exists_freeText_quote hq hs cs
  rw [match?_of_quote hq ha]
  exact @Shape.isSome_first? _ _ ⟨.periodTitle, Pattern.periodTitle⟩ _ _ _ (by simp [shapes]) hp

theorem isSome_match?_apostrophe (ha : c.after = '\'' :: cs) :
    (Kind.sankey.grammar.lexicon.match? c).isSome = true := by
  obtain ⟨taken, rest, hp⟩ := @Pattern.exists_freeText_quote '\'' [','] rfl (by decide) cs
  rw [match?_of_quote rfl ha]
  exact @Shape.isSome_first? _ _ ⟨.sankeyNode, Pattern.sankeyNode⟩ _ _ _ (by simp [shapes]) hp

theorem closes_iff_overlooks (hq : isQuote q = true) (ha : c.after = q :: cs)
    (hm : k.grammar.lexicon.match? c = none) :
    k.Closes q (restOfLine cs) ↔ k.Overlooks q (restOfLine cs) := by
  refine ⟨fun h ↦ ?_, Overlooks.closes⟩
  have hnone : ¬(k.grammar.lexicon.match? c).isSome = true := by simp [hm]
  generalize hline : restOfLine cs = line at h
  cases h with
  | string hk hmem =>
    rw [← hline] at hmem
    cases k with
    | info | architecture => exact .string (by decide) (hline ▸ hmem)
    | pie | packet => exact absurd ((isSome_match?_string (by decide) hq ha).2 hmem) hnone
    | timeline => exact absurd (isSome_match?_timeline hq ha) hnone
    | sankey =>
      rcases Lexicon.eq_of_isQuote hq with rfl | rfl
      · exact absurd ⟨rfl, rfl⟩ hk
      · exact absurd (isSome_match?_apostrophe ha) hnone
  | @field body rest hr =>
    cases body with
    | nil => exact .emptyField hr
    | cons b body =>
      exact absurd (isSome_match?_field (List.cons_ne_nil b body) hr hline ha) hnone

theorem match?_of_overlooks (hq : isQuote q = true) (ha : c.after = q :: cs)
    (h : k.Overlooks q (restOfLine cs)) : k.grammar.lexicon.match? c = none := by
  generalize hline : restOfLine cs = line at h
  cases h with
  | string hk _ => exact match?_of_unread hk hq ha
  | emptyField hr => exact match?_of_emptyField hr hline ha

/-- An unterminated string is reported from a quote to the end of its line. It is closed there just
where the kind overlooks the string; and wherever a scan comes to a string that the kind overlooks,
it is reported. -/
theorem unterminated_closes_iff (k : Kind) (text : String) :
    (∀ e ∈ (k.grammar.parse text).lexerErrors, e.code = some .E002 → ∃ s c q cs,
      e.primarySpan = some s ∧ Cursor.at? text.toList s.start = some c ∧ c.after = q :: cs ∧
      isQuote q = true ∧ s.stop = s.start + byteSize (q :: restOfLine cs) ∧
      (k.Closes q (restOfLine cs) ↔ k.Overlooks q (restOfLine cs))) ∧
    ∀ ts es c q cs, k.grammar.lexicon.Walks (.start text.toList) ts es c → c.after = q :: cs →
      isQuote q = true → k.Overlooks q (restOfLine cs) →
      ∃ e ∈ (k.grammar.parse text).lexerErrors, e.code = some .E002 ∧
        e.primarySpan = some ⟨c.offset, c.offset + byteSize (q :: restOfLine cs)⟩ := by
  have hspan (c : Cursor) {q : Char} {cs : List Char} (hq : isQuote q = true) :
      (Lexicon.unmatchedFault (k.grammar.lexicon.unmatchedToken c q cs)).diagnostic.primarySpan =
        some ⟨c.offset, c.offset + byteSize (q :: restOfLine cs)⟩ := by
    rw [Lexicon.primarySpan_unmatchedFault, Lexicon.unmatchedToken, Lexicon.unmatched, if_pos hq]
    rfl
  refine ⟨fun e he hcode ↦ ?_, fun ts es c q cs hw ha hq hover ↦ ?_⟩
  · obtain ⟨c', -, hw⟩ := k.grammar.lexicon.walks_scan (.start text.toList)
    obtain ⟨c, q, cs, ht, ha, hm, rfl⟩ := hw.exists_unmatched he
    have hq : isQuote q = true := by
      rw [Lexicon.code_unmatched] at hcode
      by_contra hno
      simp [hno] at hcode
    exact ⟨_, c, q, cs, hspan c hq, Cursor.at?_eq_some_iff.2 ⟨ht, rfl⟩, ha, hq, rfl,
      closes_iff_overlooks hq ha hm⟩
  · refine ⟨(Lexicon.unmatchedFault (k.grammar.lexicon.unmatchedToken c q cs)).diagnostic, ?_, ?_,
      hspan c hq⟩
    · have hscan := hw.scan_eq
      rw [Lexicon.scan_of_none (match?_of_overlooks hq ha hover) ha] at hscan
      have herrors : (k.grammar.parse text).lexerErrors =
          (k.grammar.lexicon.scan (.start text.toList)).errors := rfl
      rw [herrors, hscan]
      simp
    · rw [Lexicon.code_unmatched, hq, if_pos rfl]

theorem unterminated_closes_iff_quotes :
    (Fault.unterminatedString "\"a\"\"b" ⟨12, 17⟩).diagnostic ∈
      (Kind.sankey.grammar.parse "sankey-beta\n\"a\"\"b").lexerErrors ∧
    ¬Kind.sankey.Closes '"' "a\"\"b".toList ∧
    Kind.info.Closes '"' "a\"".toList ∧
    ∃ e ∈ (Kind.info.grammar.parse "info \"a\"").lexerErrors, e.code = some .E002 ∧
      e.primarySpan = some ⟨5, 8⟩ := by
  have he : (Fault.unterminatedString "\"a\"\"b" ⟨12, 17⟩).diagnostic ∈
      (Kind.sankey.grammar.parse "sankey-beta\n\"a\"\"b").lexerErrors := by decide +kernel
  have hover : Kind.info.Overlooks '"' "a\"".toList := .string (by decide) (by decide)
  refine ⟨he, ?_, hover.closes, ?_⟩
  · obtain ⟨s, c, q, cs, hs, hat, ha, -, -, hiff⟩ := (unterminated_closes_iff .sankey _).1 _ he rfl
    obtain rfl := Option.some.inj hs
    obtain rfl := Option.some.inj hat
    obtain ⟨rfl, rfl⟩ := List.cons.inj ha
    intro hclosed
    cases hiff.1 hclosed with
    | string hk => exact absurd hk (by decide)
  · have hword : Kind.info.grammar.lexicon.match? (.start "info \"a\"".toList) =
        some ⟨.keyword .info, "info".toList, " \"a\"".toList⟩ := rfl
    have hspace : Kind.info.grammar.lexicon.match? ⟨"ofni".toList, " \"a\"".toList⟩ =
        some ⟨.whitespace, [' '], "\"a\"".toList⟩ := rfl
    exact (unterminated_closes_iff .info "info \"a\"").2 _ _ _ '"' "a\"".toList
      (.take hword rfl (.skip hspace rfl (.done _))) rfl rfl hover

/-- Strings where none are read, and an empty field. -/
theorem unterminated_overlooks :
    (Kind.info.grammar.parse "info \"a\"").lexerErrors =
      [(Fault.unterminatedString "\"a\"" ⟨5, 8⟩).diagnostic] ∧
    (Kind.architecture.grammar.parse "architecture-beta\nservice db ''\n").lexerErrors =
      [(Fault.unterminatedString "''" ⟨29, 31⟩).diagnostic] ∧
    (Kind.sankey.grammar.parse "sankey-beta\n\"\"\n").lexerErrors =
      [(Fault.unterminatedString "\"\"" ⟨12, 14⟩).diagnostic] := by
  -- The sorted symbols are written out, since sorting does not evaluate here.
  have hrules : Kind.architecture.grammar.lexicon =
      ⟨Lexicon.base.rules ++ Kind.architecture.shapes.map Shape.rule⟩ := by
    rw [← Kind.rules_lexicon]
  refine ⟨by decide +kernel, ?_, by decide +kernel⟩
  rw [Grammar.parse, hrules]
  decide +kernel

end Kind

end DiagramText
