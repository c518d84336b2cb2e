import DiagramText.Proofs.LineBreaks
import DiagramText.Proofs.SliceValues

namespace DiagramText

open Text (isBlank isBreak startsWith trim trimEnd trimStart)
open Pattern (isSpace)

/-- A description as it is written: a colon and the rest of the line, or a block, whose body goes
on to the next closing brace. -/
inductive Description
  | line (spaces text : List Char) (spaced : ∀ c ∈ spaces, isSpace c = true)
      (unbroken : ∀ c ∈ text, isBreak c = false)
  | block (blanks body : List Char) (blank : ∀ c ∈ blanks, isBlank c = true)
      (unclosed : '\x7d' ∉ body)

namespace Description

def isLine : Description → Bool
  | line .. => true
  | block .. => false

def written : Description → List Char
  | line spaces text _ _ => "accDescr".toList ++ (spaces ++ ':' :: text)
  | block blanks body _ _ => "accDescr".toList ++ (blanks ++ '\x7b' :: (body ++ ['\x7d']))

@[simp] theorem written_line {spaces text : List Char} {hs : ∀ c ∈ spaces, isSpace c = true}
    {hu : ∀ c ∈ text, isBreak c = false} :
    (line spaces text hs hu).written = "accDescr".toList ++ (spaces ++ ':' :: text) := rfl

@[simp] theorem written_block {blanks body : List Char} {hb : ∀ c ∈ blanks, isBlank c = true}
    {hu : '\x7d' ∉ body} :
    (block blanks body hb hu).written =
      "accDescr".toList ++ (blanks ++ '\x7b' :: (body ++ ['\x7d'])) := rfl

def marked : Description → List Char
  | line _ text _ _ => ':' :: text
  | block _ body _ _ => '\x7b' :: (body ++ ['\x7d'])

/-- What is described: the text trimmed, or the lines of the body, each trimmed, with line feeds
between them and the whole trimmed. -/
def text : Description → List Char
  | line _ text _ _ => trim text
  | block _ body _ _ => trim (['\n'].intercalate ((Text.lines body).map trim))

/-- What the readers keep of the description. -/
def kept : Description → List Char
  | line _ text _ _ => trim text
  | block _ body _ _ => Reader.trimmedLines (body.dropWhile (· = '\x7b'))

/-- The body begins with a brace of its own. -/
def DoublesBrace : Description → Prop
  | line .. => False
  | block _ body _ _ => body.head? = some '\x7b'

end Description

namespace Text

variable {z : Char}

theorem count_dropWhile {p : Char → Bool} (hz : p z = false) (cs : List Char) :
    (cs.dropWhile p).count z = cs.count z := by
  have hout : (cs.takeWhile p).count z = 0 := by
    rw [List.count_eq_zero]
    intro h
    rw [List.mem_takeWhile_imp h] at hz
    cases hz
  have hsplit := congrArg (List.count z) (@List.takeWhile_append_dropWhile _ p cs)
  rw [List.count_append, hout, Nat.zero_add] at hsplit
  exact hsplit

theorem count_trim (hz : isBlank z = false) (cs : List Char) : (trim cs).count z = cs.count z := by
  rw [trim, trimEnd, dropWhileEnd, List.count_reverse, count_dropWhile hz, List.count_reverse,
    trimStart, count_dropWhile hz]

theorem count_intercalate (hz : z ≠ '\n') (lines : List (List Char)) :
    (['\n'].intercalate lines).count z = lines.flatten.count z := by
  have hfeed : ['\n'].count z = 0 := List.count_eq_zero.2 (by simpa using hz)
  induction lines with
  | nil => rfl
  | cons line lines ih =>
    cases lines with
    | nil => simp
    | cons next lines =>
      rw [List.intercalate_cons_cons, List.count_append, List.count_append, ih, hfeed, Nat.add_zero,
        @List.flatten_cons _ line, List.count_append]

theorem count_flatten_trim (hz : isBlank z = false) (lines : List (List Char)) :
    (lines.map trim).flatten.count z = lines.flatten.count z := by
  induction lines with
  | nil => rfl
  | cons line lines ih =>
    rw [List.map_cons, List.flatten_cons, List.flatten_cons, List.count_append, List.count_append,
      count_trim hz, ih]

theorem lines_cons {c : Char} {cs : List Char} (hn : c ≠ '\n')
    (hr : ¬(c = '\r' ∧ cs.head? = some '\n')) :
    lines (c :: cs) = (c :: (lines cs).headD []) :: (lines cs).tail := by
  have hreturn (ds : List Char) : c = '\r' → cs ≠ '\n' :: ds := by
    rintro hc rfl
    exact hr ⟨hc, rfl⟩
  rw [lines.eq_4 _ _ hreturn hn]
  cases lines cs <;> rfl

theorem count_flatten_lines (hz : isBlank z = false) (cs : List Char) :
    (lines cs).flatten.count z = cs.count z := by
  have hfeed : '\n' ≠ z := by
    rintro rfl
    cases hz
  have hreturn : '\r' ≠ z := by
    rintro rfl
    cases hz
  induction cs with
  | nil => rfl
  | cons c cs ih =>
    by_cases hn : c = '\n'
    · rw [hn, List.count_cons_of_ne hfeed]
      exact ih
    by_cases hr : c = '\r' ∧ cs.head? = some '\n'
    · -- The line ends at the carriage return as it would at the line feed.
      obtain ⟨rfl, hhead⟩ := hr
      obtain ⟨ds, rfl⟩ := List.head?_eq_some_iff.1 hhead
      rw [List.count_cons_of_ne hreturn]
      exact ih
    · have hflatten : (lines (c :: cs)).flatten = c :: (lines cs).flatten := by
        rw [lines_cons hn hr]
        cases lines cs <;> rfl
      rw [hflatten, List.count_cons, List.count_cons, ih]

theorem not_mem_of_cut? {cs before rest : List Char} (h : cut? [z] cs = some (before, rest)) :
    z ∉ before := by
  induction cs generalizing before with
  | nil => cases h
  | cons c cs ih =>
    unfold cut? at h
    split at h
    · obtain ⟨rfl, -⟩ := Prod.mk.inj (Option.some.inj h)
      simp
    · rename_i hc
      obtain ⟨⟨b, r⟩, hb, he⟩ := Option.map_eq_some_iff.1 h
      obtain ⟨rfl, rfl⟩ := Prod.mk.inj he
      have hne : z ≠ c := by
        rintro rfl
        simp [after?] at hc
      exact List.not_mem_cons_of_ne_of_not_mem hne (ih hb)

end Text

namespace Reader

def takesLine (cs : List Char) : Bool :=
  startsWith [':'] (trimStart (Text.dropBytes "accDescr".utf8ByteSize cs))

theorem descriptionText_eq (cs : List Char) :
    descriptionText cs =
      let body := trimStart (Text.dropBytes "accDescr".utf8ByteSize cs)
      if takesLine cs then afterColon body
      else trimmedLines (Text.dropWhileEnd (· = '\x7d') (body.dropWhile (· = '\x7b'))) :=
  rfl

theorem count_trimmedLines {z : Char} (hz : isBlank z = false) (cs : List Char) :
    (trimmedLines cs).count z = cs.count z := by
  have hfeed : z ≠ '\n' := by
    rintro rfl
    cases hz
  calc (trimmedLines cs).count z
      = (['\n'].intercalate ((Text.lines cs).map trim)).count z := Text.count_trim hz _
    _ = ((Text.lines cs).map trim).flatten.count z := Text.count_intercalate hfeed _
    _ = (Text.lines cs).flatten.count z := Text.count_flatten_trim hz _
    _ = cs.count z := Text.count_flatten_lines hz cs

/-- Where braces are taken off, the trimmed lines tell, as they hold fewer of them. -/
theorem trimmedLines_dropWhile_eq_iff (cs : List Char) :
    trimmedLines (cs.dropWhile (· = '\x7b')) = trimmedLines cs ↔ cs.head? ≠ some '\x7b' := by
  cases cs with
  | nil => simp
  | cons c cs =>
    by_cases hc : c = '\x7b'
    · have hfewer : (cs.dropWhile (· = '\x7b')).count '\x7b' ≤ cs.count '\x7b' :=
        (List.dropWhile_suffix _).sublist.count_le _
      rw [hc, List.dropWhile_cons_of_pos (by simp), List.head?_cons]
      refine iff_of_false (fun h ↦ ?_) (fun h ↦ h rfl)
      have hcount := congrArg (List.count '\x7b') h
      rw [count_trimmedLines (by decide), count_trimmedLines (by decide),
        List.count_cons_self] at hcount
      omega
    · rw [List.dropWhile_cons_of_neg (by simpa using hc)]
      simpa using hc

end Reader

namespace Description

variable (d : Description)

theorem trimStart_written :
    trimStart (Text.dropBytes "accDescr".utf8ByteSize d.written) = d.marked := by
  cases d with
  | line spaces text hs _ =>
    have hb : ∀ c ∈ spaces, isBlank c = true := fun c hc ↦ Pattern.isBlank_of_isSpace (hs c hc)
    rw [written_line, Reader.trimStart_pastWord hb (by decide), marked]
  | block blanks body hb _ =>
    rw [written_block, Reader.trimStart_pastWord hb (by decide), marked]

theorem takesLine_written : Reader.takesLine d.written = d.isLine := by
  rw [Reader.takesLine, trimStart_written]
  cases d with
  | line => rfl
  | block => rfl

theorem descriptionText_written : Reader.descriptionText d.written = d.kept := by
  rw [Reader.descriptionText_eq, takesLine_written, trimStart_written]
  cases d with
  | line => rfl
  | block blanks body _ hc =>
    have hopen : ('\x7b' :: (body ++ ['\x7d'])).dropWhile (· = '\x7b') =
        body.dropWhile (· = '\x7b') ++ ['\x7d'] := by
      rw [List.dropWhile_cons_of_pos (by simp), Text.dropWhile_append_cons (by decide)]
    have hclosed : ∀ c ∈ body.dropWhile (· = '\x7b'), decide (c = '\x7d') = false := by
      intro c h
      apply decide_eq_false
      intro he
      exact hc (he ▸ (List.dropWhile_suffix _).subset h)
    rw [isLine, marked]
    dsimp only
    rw [hopen, Text.dropWhileEnd_concat (by decide), Text.dropWhileEnd_eq_self hclosed]
    rfl

theorem kept_eq_text_iff : d.kept = d.text ↔ ¬d.DoublesBrace := by
  cases d with
  | line => exact iff_of_true rfl not_false
  | block blanks body _ _ => exact Reader.trimmedLines_dropWhile_eq_iff body

end Description

namespace Pattern

variable {cs taken rest : List Char}

theorem not_isBreak_of_freeText {stops : List Char} (h : freeText stops cs = some (taken, rest)) :
    ∀ c ∈ taken, isBreak c = false := by
  induction cs generalizing taken with
  | nil =>
    obtain ⟨rfl, -⟩ := Prod.mk.inj (Option.some.inj h)
    simp
  | cons c cs ih =>
    unfold freeText at h
    split at h
    · obtain ⟨rfl, -⟩ := Prod.mk.inj (Option.some.inj h)
      simp
    · rename_i hc
      obtain ⟨⟨t, r⟩, ht, he⟩ := Option.map_eq_some_iff.1 h
      obtain ⟨rfl, rfl⟩ := Prod.mk.inj he
      refine List.forall_mem_cons.2 ⟨?_, ih ht⟩
      simp only [Bool.or_eq_true, not_or, Bool.not_eq_true] at hc
      exact hc.1.1

theorem exists_line (h : labelled "accDescr".toList cs = some (taken, rest)) :
    ∃ d : Description, d.written = taken ∧ d.isLine = true := by
  obtain ⟨_, _, _, hword, htail, rfl⟩ := seq_eq_some_iff.1 h
  obtain ⟨_, _, _, hspaces, hbody, rfl⟩ := seq_eq_some_iff.1 htail
  obtain ⟨_, _, text, hcolon, htext, rfl⟩ := seq_eq_some_iff.1 hbody
  obtain ⟨rfl, -⟩ := literal_eq_some_iff.1 hword
  obtain ⟨rfl, -⟩ := many_eq_some_iff.1 hspaces
  obtain ⟨rfl, -⟩ := literal_eq_some_iff.1 hcolon
  exact ⟨.line _ text (fun c hc ↦ List.mem_takeWhile_imp hc) (not_isBreak_of_freeText htext),
    rfl, rfl⟩

theorem exists_description (h : accDescr cs = some (taken, rest)) :
    ∃ d : Description, d.written = taken ∧
      d.isLine = (labelled "accDescr".toList cs).isSome := by
  unfold accDescr alt at h
  split at h
  · rename_i m hm
    obtain rfl := Option.some.inj h
    obtain ⟨d, hd, hline⟩ := exists_line hm
    exact ⟨d, hd, by rw [hline, hm, Option.isSome_some]⟩
  · rename_i hnone
    obtain ⟨_, _, _, hword, htail, rfl⟩ := seq_eq_some_iff.1 h
    obtain ⟨_, _, _, hblanks, hblock, rfl⟩ := seq_eq_some_iff.1 htail
    obtain ⟨_, _, _, hopen, hbody, rfl⟩ := seq_eq_some_iff.1 hblock
    obtain ⟨rfl, -⟩ := literal_eq_some_iff.1 hword
    obtain ⟨rfl, -⟩ := many_eq_some_iff.1 hblanks
    obtain ⟨rfl, -⟩ := literal_eq_some_iff.1 hopen
    obtain ⟨body, hcut, rfl⟩ := through_eq_some_iff.1 hbody
    have hunclosed := Text.not_mem_of_cut? hcut
    refine ⟨.block _ body (fun c hc ↦ List.mem_takeWhile_imp hc) hunclosed, rfl, ?_⟩
    rw [hnone]
    rfl

end Pattern

theorem Lexicon.Walks.exists_matched {l : Lexicon} {c c' : Cursor} {ts : List Token}
    {es : List Diagnostic} {t : Token} (h : Walks l c ts es c') (ht : t ∈ ts)
    (hk : t.kind ≠ .invalid) :
    ∃ d m, d.text = c.text ∧ l.match? d = some m ∧ t = token m.kind d m.text := by
  induction h with
  | done c => cases ht
  | skip hm _ _ ih =>
    rw [← text_past_of_match? hm]
    exact ih ht
  | @take c c' m ts es hm _ _ ih =>
    rcases List.mem_cons.1 ht with rfl | ht
    · exact ⟨c, m, rfl, hm, rfl⟩
    · rw [← text_past_of_match? hm]
      exact ih ht
  | giveUp _ ha _ ih =>
    rcases List.mem_cons.1 ht with rfl | ht
    · exact absurd rfl hk
    · rw [← text_pastUnmatched ha]
      exact ih ht

namespace Reader

theorem eq_common_of_accDescr {read : Reader} (hread : read ∈ all) {t : Token}
    (hk : t.kind = .accDescr) : read t = common t := by
  simp only [all, List.mem_cons, List.not_mem_nil, or_false] at hread
  rcases hread with rfl | rfl | rfl | rfl
  · rfl
  · exact Grammar.Sankey.reader_note (by rw [hk]; rfl)
  · exact Grammar.Timeline.reader_note (by rw [hk]; rfl)
  · exact Grammar.Architecture.reader_note (by rw [hk]; rfl)

theorem read_description {read : Reader} (hread : read ∈ all) {t : Token}
    (hk : t.kind = .accDescr) {d : Description} (hd : d.written = t.text.toList) :
    read t = .ok (.ofChars d.kept) := by
  have hcommon : common t = .ok (.ofChars (descriptionText t.text.toList)) := by
    rw [common, hk]
  rw [eq_common_of_accDescr hread hk, hcommon, ← hd, d.descriptionText_written]

end Reader

namespace Kind

variable {k : Kind}

theorem accDescr_of_match? {c : Cursor} {m : Match} (h : k.grammar.lexicon.match? c = some m)
    (hk : m.kind = .accDescr) : Pattern.accDescr c.after = some (m.text, m.rest) :=
  eq_of_match? h (congrArg Token.Kind.pattern? hk)

/-- Every token of a description is one as it is written, taken at its place in the text, and the
readers tell its form as the pattern did. What they keep of it is all that is described, unless it
is a block whose body begins with a brace. -/
theorem description_kept_iff (k : Kind) (text : String) :
    ∀ t ∈ (k.grammar.lexicon.tokenize text.toList).tokens, t.kind = .accDescr →
      ∃ (d : Description) (c : Cursor) (rest : List Char),
        d.written = t.text.toList ∧ c.text = text.toList ∧ c.offset = t.span.start ∧
        Pattern.accDescr c.after = some (d.written, rest) ∧
        d.isLine = (Pattern.labelled "accDescr".toList c.after).isSome ∧
        Reader.takesLine t.text.toList = d.isLine ∧
        ∀ read ∈ Reader.all, read t = .ok (.ofChars d.kept) ∧
          (read t = .ok (.ofChars d.text) ↔ ¬d.DoublesBrace) := by
  intro t ht hk
  obtain ⟨c', -, hw⟩ := k.grammar.lexicon.walks_scan (.start text.toList)
  obtain ⟨c, m, hc, hm, rfl⟩ := hw.exists_matched ht (by rw [hk]; nofun)
  have hp := accDescr_of_match? hm hk
  obtain ⟨d, hd, hline⟩ := Pattern.exists_description hp
  have htext : d.written = (Lexicon.token m.kind c m.text).text.toList := by
    rw [hd, Lexicon.token, String.toList_ofList]
  refine ⟨d, c, m.rest, htext, hc, rfl, hd ▸ hp, hline, ?_, fun read hread ↦ ?_⟩
  · rw [← htext]
    exact d.takesLine_written
  · have hread := Reader.read_description hread hk htext
    refine ⟨hread, ?_⟩
    rw [hread, ← d.kept_eq_text_iff, Except.ok.injEq, Value.ofChars, Value.ofChars,
      Value.text.injEq, String.ofList_inj]

def bothForms : String :=
  "info\naccDescr : \x7b\x7bx\x7d\naccDescr\n\x7b a \x7b\r\n b\x7d"

theorem description_kept_iff_bothForms :
    let line : Token := ⟨.accDescr, "accDescr : \x7b\x7bx\x7d", ⟨5, 20⟩⟩
    let block : Token := ⟨.accDescr, "accDescr\n\x7b a \x7b\r\n b\x7d", ⟨21, 40⟩⟩
    (line ∈ (info.grammar.lexicon.tokenize bothForms.toList).tokens ∧
      ∃ d : Description, d.written = line.text.toList ∧ d.isLine = true ∧
        Reader.common line = .ok (.ofChars d.text)) ∧
    block ∈ (info.grammar.lexicon.tokenize bothForms.toList).tokens ∧
      ∃ d : Description, d.written = block.text.toList ∧ d.isLine = false ∧
        Reader.common block = .ok (.ofChars d.kept) := by
  intro line block
  have hcommon : Reader.common ∈ Reader.all := List.mem_cons_self
  have hline : line ∈ (info.grammar.lexicon.tokenize bothForms.toList).tokens := by
    decide +kernel
  have hblock : block ∈ (info.grammar.lexicon.tokenize bothForms.toList).tokens := by
    decide +kernel
  refine ⟨⟨hline, ?_⟩, hblock, ?_⟩
  · obtain ⟨d, _, _, hd, -, -, -, -, hform, hread⟩ :=
      description_kept_iff info bothForms line hline rfl
    have hd' : d.isLine = true := hform.symm.trans (by decide +kernel)
    refine ⟨d, hd, hd', (hread _ hcommon).2.2 ?_⟩
    cases d with
    | line => exact id
    | block => cases hd'
  · obtain ⟨d, _, _, hd, -, -, -, -, hform, hread⟩ :=
      description_kept_iff info bothForms block hblock rfl
    exact ⟨d, hd, hform.symm.trans (by decide +kernel), (hread _ hcommon).1⟩

/-- A block whose body is a brace and a letter is read as the letter. -/
theorem description_overlooks :
    let t : Token := ⟨.accDescr, "accDescr \x7b\x7bx\x7d", ⟨5, 18⟩⟩
    let body := "\x7bx".toList
    t ∈ (info.grammar.lexicon.tokenize "info\naccDescr \x7b\x7bx\x7d".toList).tokens ∧
      t.text.toList = "accDescr".toList ++ (" ".toList ++ '\x7b' :: (body ++ ['\x7d'])) ∧
      '\x7d' ∉ body ∧ trim (['\n'].intercalate ((Text.lines body).map trim)) = body ∧
      (∀ read ∈ Reader.all, read t ≠ .ok (.ofChars body)) ∧
      info.parse "info\naccDescr \x7b\x7bx\x7d" =
        .ok (.info { showInfo := false, annotations := { accDescr := some "x" } }) := by
  refine ⟨by decide +kernel, by decide +kernel, by decide, by decide +kernel, ?_, ?_⟩
  · intro read hread h
    rw [Reader.eq_common_of_accDescr hread rfl] at h
    exact absurd (Value.text.inj (Except.ok.inj h)) (by decide +kernel)
  · exact parse_eq_ok_of_toOption (by decide +kernel)

end Kind

end DiagramText
