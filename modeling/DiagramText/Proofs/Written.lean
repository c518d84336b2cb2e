import DiagramText.Proofs.AlikeTrees
import Mathlib.Data.List.Infix

namespace DiagramText

open Text (after? between? isBlank isBreak)
open Pattern (commentMark isSpace)

def Token.unplaced (kind : Token.Kind) (text : List Char) : Token :=
  ⟨kind, String.ofList text, default⟩

def Token.feed : Token :=
  .unplaced .newline ['\n']

namespace Text

variable {p : Char → Bool} {cs : List Char}

theorem dropWhile_eq_self (h : ∀ c ∈ cs, p c = false) : cs.dropWhile p = cs := by
  cases cs with
  | nil => rfl
  | cons c cs => exact List.dropWhile_cons_of_neg (by simp [h c List.mem_cons_self])

theorem dropWhileEnd_eq_self (h : ∀ c ∈ cs, p c = false) : dropWhileEnd p cs = cs := by
  rw [dropWhileEnd, dropWhile_eq_self fun c hc ↦ h c (List.mem_reverse.1 hc), List.reverse_reverse]

theorem trim_cons_blank {z : Char} (hz : isBlank z = true) (cs : List Char) :
    trim (z :: cs) = trim cs := by
  rw [trim, trimStart, List.dropWhile_cons_of_pos hz]
  rfl

theorem head_of_trim (h : trim cs = cs) : ∀ c ∈ cs.head?, isBlank c = false := by
  intro c hc
  cases cs with
  | nil => cases hc
  | cons d cs =>
    obtain rfl : d = c := Option.some.inj hc
    by_contra hb
    rw [trim_cons_blank (Bool.not_eq_false _ ▸ hb)] at h
    have hstart := trimStart_length_le cs
    have hend : (trim cs).length ≤ (trimStart cs).length := by
      have hdrop := (List.dropWhile_suffix isBlank (l := (trimStart cs).reverse)).length_le
      simpa [trim, trimEnd, dropWhileEnd] using hdrop
    rw [h, List.length_cons] at hend
    omega

theorem between?_eq (opening inner closing : List Char) :
    between? opening closing (opening ++ (inner ++ closing)) = some inner := by
  have hopen : after? opening (opening ++ (inner ++ closing)) = some (inner ++ closing) :=
    after?_eq_some_iff.2 rfl
  have hclose : after? closing.reverse (inner ++ closing).reverse = some inner.reverse :=
    after?_eq_some_iff.2 (by rw [List.reverse_append])
  rw [between?, hopen, Option.bind_some, hclose, Option.map_some, List.reverse_reverse]

end Text

namespace Pattern

variable {p : Char → Bool} {taken rest : List Char}

theorem many_run (h : ∀ c ∈ taken, p c = true) (hr : ∀ c ∈ rest.head?, p c = false) :
    many p (taken ++ rest) = some (taken, rest) := by
  have htake : rest.takeWhile p = [] := by
    cases rest with
    | nil => rfl
    | cons c cs => exact List.takeWhile_cons_of_neg (by simp [hr c rfl])
  have hdrop : rest.dropWhile p = rest := by
    cases rest with
    | nil => rfl
    | cons c cs => exact List.dropWhile_cons_of_neg (by simp [hr c rfl])
  rw [many, List.takeWhile_append_of_pos h, List.dropWhile_append_of_pos h, htake, hdrop,
    List.append_nil]

theorem many1_run (h : ∀ c ∈ taken, p c = true) (hn : taken ≠ [])
    (hr : ∀ c ∈ rest.head?, p c = false) : many1 p (taken ++ rest) = some (taken, rest) := by
  have hmany := many_run h hr
  obtain ⟨htake, -⟩ := Prod.mk.inj (Option.some.inj hmany)
  rw [many1, htake, if_neg hn, ← hmany]
  simp only [many, htake]

/-- Nothing in the text ends free text: no line break, no stop and no comment mark. -/
def IsFree (stops cs : List Char) : Prop :=
  (∀ c ∈ cs, isBreak c = false ∧ c ∉ stops) ∧ ¬commentMark <:+: cs

theorem exists_mem_tails_iff {mark cs : List Char} :
    (∃ t ∈ cs.tails, mark <+: t) ↔ mark <:+: cs := by
  simp only [List.mem_tails, List.infix_iff_prefix_suffix, and_comm]

-- The characters of the text are gone through, not all that there are, and its ends, each once.
instance (stops cs : List Char) : Decidable (IsFree stops cs) :=
  haveI : Decidable (∀ c ∈ cs, isBreak c = false ∧ c ∉ stops) := List.decidableBAll _ _
  haveI : Decidable (commentMark <:+: cs) := decidable_of_iff _ exists_mem_tails_iff
  instDecidableAnd

/-- Free text ends here: the text is over, or a line break or a stop follows. -/
def Stopped (stops rest : List Char) : Prop :=
  ∀ c ∈ rest.head?, isBreak c = true ∨ c ∈ stops

/-- No comment mark begins in free text, also where its end is a half of one. -/
theorem IsFree.after?_commentMark {stops : List Char} (h : IsFree stops taken) (hn : taken ≠ [])
    (hr : Stopped stops rest) : after? commentMark (taken ++ rest) = none := by
  rw [Option.eq_none_iff_forall_ne_some]
  intro cs hcs
  obtain ⟨hchars, hmark⟩ := h
  obtain ⟨c, taken, rfl⟩ := List.exists_cons_of_ne_nil hn
  obtain ⟨rfl, htail⟩ := List.cons.inj (Text.after?_eq_some_iff.1 hcs)
  cases taken with
  | nil =>
    have htail : rest = '%' :: cs := htail
    rcases hr '%' (by rw [htail]; rfl) with hb | hs
    · cases hb
    · exact (hchars '%' List.mem_cons_self).2 hs
  | cons d taken =>
    obtain ⟨rfl, -⟩ := List.cons.inj htail
    exact hmark ⟨[], taken, rfl⟩

theorem freeText_run {stops : List Char} (h : IsFree stops taken) (hr : Stopped stops rest) :
    freeText stops (taken ++ rest) = some (taken, rest) := by
  induction taken with
  | nil =>
    cases rest with
    | nil => rfl
    | cons c rest =>
      have hstop : isBreak c = true ∨ c ∈ stops := hr c rfl
      rw [List.nil_append, freeText, if_pos]
      simpa [or_assoc] using hstop.elim Or.inl fun hc ↦ .inr (.inl hc)
  | cons c taken ih =>
    have hmark : Text.startsWith commentMark (c :: (taken ++ rest)) = false := by
      rw [Text.startsWith, ← List.cons_append, h.after?_commentMark (List.cons_ne_nil c taken) hr]
      rfl
    obtain ⟨⟨hbreak, hstop⟩, hchars⟩ := List.forall_mem_cons.1 h.1
    have hrest := ih ⟨hchars, fun hm ↦ h.2 (List.infix_cons hm)⟩
    rw [List.cons_append, freeText, if_neg (by simp [hbreak, hstop, hmark]), hrest]
    rfl

theorem freeText_nonempty_run {stops : List Char} (h : IsFree stops taken) (hn : taken ≠ [])
    (hr : Stopped stops rest) :
    (freeText stops).nonempty (taken ++ rest) = some (taken, rest) := by
  rw [nonempty, freeText_run h hr, Option.filter_some, if_pos (by simpa using hn)]

end Pattern

theorem ne_of_isDigit {d c : Char} (hd : d.isDigit = true) (hc : c.isDigit = false) : d ≠ c := by
  rintro rfl
  rw [hd] at hc
  cases hc

inductive Numeral : List Char → Prop
  | whole {ds : List Char} : ds ≠ [] → (∀ d ∈ ds, d.isDigit = true) → Numeral ds
  | point {ds es : List Char} : ds ≠ [] → (∀ d ∈ ds, d.isDigit = true) → es ≠ [] →
      (∀ e ∈ es, e.isDigit = true) → Numeral (ds ++ '.' :: es)

theorem Numeral.exists_cons {cs : List Char} (h : Numeral cs) :
    ∃ d ds, cs = d :: ds ∧ d.isDigit = true := by
  cases h with
  | whole hn hd | point hn hd =>
    obtain ⟨d, ds, rfl⟩ := List.exists_cons_of_ne_nil hn
    exact ⟨d, _, rfl, hd d List.mem_cons_self⟩

theorem Numeral.digit_or_point {cs : List Char} (h : Numeral cs) :
    ∀ c ∈ cs, c.isDigit = true ∨ c = '.' := by
  cases h with
  | whole _ hd => exact fun c hc ↦ .inl (hd c hc)
  | point _ hd _ he =>
    intro c hc
    rcases List.mem_append.1 hc with hc | hc
    · exact .inl (hd c hc)
    · exact (List.mem_cons.1 hc).symm.imp_left (he c)

theorem Numeral.digits_append {cs rest : List Char} (h : Numeral cs)
    (hr : ∀ c ∈ rest.head?, c.isDigit = false ∧ c ≠ '.') :
    Pattern.digits (cs ++ rest) = some (cs, rest) := by
  have hstop : ∀ c ∈ rest.head?, c.isDigit = false := fun c hc ↦ (hr c hc).1
  cases h with
  | whole hn hd =>
    have hpoint : Pattern.literal ['.'] rest = none := by
      cases rest with
      | nil => rfl
      | cons c cs => simp [Pattern.literal, Text.after?, (hr c rfl).2.symm]
    simp [Pattern.digits, Pattern.seq, Pattern.optional, Pattern.many1_run hd hn hstop, hpoint]
  | @point ds es hn hd hen hed =>
    have hwhole : Pattern.many1 Char.isDigit (ds ++ '.' :: (es ++ rest)) =
        some (ds, '.' :: (es ++ rest)) :=
      Pattern.many1_run hd hn (by rintro c ⟨⟩; rfl)
    simp [Pattern.digits, Pattern.seq, Pattern.optional, hwhole, Pattern.many1_run hed hen hstop,
      Pattern.literal, Text.after?]

namespace Shape

variable {c : Char}

theorem match?_keyword_of_head {w : Keyword} {d : Char} {ds : List Char}
    (hw : w.text.toList = d :: ds) (h : d ≠ c) (cs : List Char) :
    (keyword w).match? (c :: cs) = none := by
  refine match?_of_none ?_
  simp [keyword, Pattern.keyword, Pattern.whenRest, Pattern.literal, hw, Text.after?, h]

theorem match?_directive_of_head (hc : c ≠ '%') (cs : List Char) :
    directive.match? (c :: cs) = none := by
  simp [match?, directive, Pattern.nonempty, Pattern.directive, Pattern.seq, Pattern.literal,
    Text.after?, hc.symm]

theorem first?_base_of_unmarked (hs : isSpace c = false) (hb : isBreak c = false) {cs : List Char}
    (hm : after? commentMark (c :: cs) = none) : first? base (c :: cs) = none := by
  have hbreak : c ≠ '\n' ∧ c ≠ '\r' := by simpa [isBreak] using hb
  have hblock : after? ['%', '%', '*'] (c :: cs) = none := by
    rw [Option.eq_none_iff_forall_ne_some] at hm ⊢
    intro rest h
    have he := Text.after?_eq_some_iff.1 h
    exact hm ('*' :: rest) (Text.after?_eq_some_iff.2 he)
  have hend : Pattern.lineEnd (c :: cs) = none := by
    simp [Pattern.lineEnd, Pattern.alt, Pattern.literal, after?, hbreak.1.symm, hbreak.2.symm]
  simp [first?, base, match?, Pattern.nonempty, Pattern.blockComment, Pattern.lineComment,
    Pattern.whitespace, Pattern.seq, Pattern.many, Pattern.literal, Pattern.blanks, hm, hblock,
    hend, hs, hbreak]

theorem first?_annotations_of_head (ha : c ≠ 'a') (ht : c ≠ 't') (cs : List Char) :
    first? annotations (c :: cs) = none := by
  simp [first?, annotations, match?, Pattern.nonempty, Pattern.accDescr, Pattern.accTitle,
    Pattern.title, Pattern.labelled, Pattern.alt, Pattern.seq, Pattern.whenRest, Pattern.literal,
    Text.after?, ha.symm, ht.symm]

end Shape

namespace Production

variable {read : Reader} {kind : Token.Kind} {t : Token} {cs : List Char}

theorem nextKind_eq (ts : List Token) : nextKind ts = .accepted (ts.head?.map Token.kind) ts := rfl

theorem token_cons (hk : t.kind = kind) (what : String) (ts : List Token) :
    token kind what (t :: ts) = .accepted t ts := by
  simp only [token, satisfying, hk, if_true]

theorem text_cons {s : String} (hk : t.kind = kind) (hr : read t = .ok (.text s)) (what : String)
    (ts : List Token) : text read kind what (t :: ts) = .accepted ⟨s, t.span⟩ ts := by
  rw [text, bind_apply]
  simp only [value, token, satisfying, hk, if_true, hr]
  rfl

theorem number_cons {x : Binary64} (hk : t.kind = kind) (hr : read t = .ok (.number x))
    (what : String) (ts : List Token) :
    number read kind what (t :: ts) = .accepted ⟨x, t.span⟩ ts := by
  rw [number, bind_apply]
  simp only [value, token, satisfying, hk, if_true, hr]
  rfl

theorem endOfLine_of_break {tail : List Token} (h : StartsAtBreak tail) :
    endOfLine tail = .accepted () (tail.dropWhile Token.isNewline) := by
  cases tail with
  | nil => rfl
  | cons t ts =>
    have ht : t.isNewline = true := h t rfl
    rw [endOfLine, if_pos ht, List.dropWhile_cons_of_pos ht]

end Production

theorem Statement.production_of_entry {α : Type} {read : Reader} {entry : Production α} {t : Token}
    {ts rest : List Token} {e : α} (ht : Annotation.opensWith t.kind = false)
    (he : entry (t :: ts) = .accepted e rest) :
    Statement.production read entry (t :: ts) = .accepted (.entry e) rest := by
  simp only [Statement.production, Production.bind_apply, Production.nextKind_eq, List.head?_cons,
    Option.map_some, Option.any_some, ht, Bool.false_eq_true, if_false, he]
  rfl

theorem Statement.entries_map {α β : Type} (f : β → α) (xs : List β) :
    entries (xs.map fun x ↦ .entry (f x)) = xs.map f := by
  rw [entries, List.filterMap_map, ← List.filterMap_eq_map]
  rfl

theorem Statement.annotations_map {α β : Type} (f : β → α) (xs : List β) :
    annotations (xs.map fun x ↦ .entry (f x)) = {} := by
  have hnotes : (xs.map fun x ↦ Statement.entry (f x)).filterMap note? = [] := by
    rw [List.filterMap_map, List.filterMap_eq_nil_iff]
    exact fun x _ ↦ rfl
  rw [annotations, hnotes]
  rfl

namespace Kind

variable {k : Kind} {cs mid rest : List Char} {ts us : List Token}

/-- The match where no directive may stand. -/
def next? (k : Kind) (cs : List Char) : Option Match :=
  Shape.first? (Shape.base ++ k.shapes) cs

/-- The rules cut a beginning of the text into these tokens and hidden pieces, and leave the
rest. -/
inductive Cuts (k : Kind) : List Char → List Token → List Char → Prop
  | done (cs : List Char) : Cuts k cs [] cs
  | skip {cs rest : List Char} {m : Match} {ts : List Token} :
      k.next? cs = some m → m.kind.isHidden = true → Cuts k m.rest ts rest → Cuts k cs ts rest
  | take {cs rest : List Char} {m : Match} {ts : List Token} :
      k.next? cs = some m → m.kind.isHidden = false → Cuts k m.rest ts rest →
      Cuts k cs (.unplaced m.kind m.text :: ts) rest

theorem Cuts.trans (h : k.Cuts cs ts mid) (h' : k.Cuts mid us rest) :
    k.Cuts cs (ts ++ us) rest := by
  induction h with
  | done cs => exact h'
  | skip hm hh _ ih => exact .skip hm hh (ih h')
  | take hm hh _ ih => exact .take hm hh (ih h')

theorem Cuts.exists_walk (h : k.Cuts cs ts rest) {c : Cursor} (ha : c.after = cs) (hc : c.Begun) :
    ∃ us d, k.grammar.lexicon.Walks c us [] d ∧ TokensAlike ts us ∧ d.after = rest ∧ d.Begun := by
  induction h generalizing c with
  | done cs => exact ⟨[], c, .done c, .nil, ha, hc⟩
  | @skip cs rest m ts hm hh _ ih =>
    obtain ⟨us, d, hw, hts, hd⟩ := @ih (c.past m.text m.rest) rfl (hc.past _ _)
    rw [next?, ← ha, ← match?_eq_of_begun hc] at hm
    exact ⟨us, d, .skip hm hh hw, hts, hd⟩
  | @take cs rest m ts hm hh _ ih =>
    obtain ⟨us, d, hw, hts, hd⟩ := @ih (c.past m.text m.rest) rfl (hc.past _ _)
    rw [next?, ← ha, ← match?_eq_of_begun hc] at hm
    exact ⟨_, d, .take hm hh hw, .cons ⟨rfl, .inl rfl⟩ hts, hd⟩

theorem match?_start {c : Char} (hc : c ≠ '%') (cs : List Char) :
    k.grammar.lexicon.match? (.start (c :: cs)) = k.next? (c :: cs) := by
  have hdirective := Shape.match?_directive_of_head hc cs
  have hblank : (Cursor.start (c :: cs)).before.all isBlank = true := rfl
  rw [k.match?_eq_first?, hblank, tried, if_pos rfl, Shape.first?, List.findSome?_cons]
  exact hdirective ▸ rfl

theorem begun_start {c : Char} (hb : isBlank c = false) {m : Match}
    (hm : k.grammar.lexicon.match? (.start (c :: cs)) = some m) :
    ((Cursor.start (c :: cs)).past m.text m.rest).Begun := by
  obtain ⟨he, hn⟩ := Lexicon.after_eq_of_match? hm
  obtain ⟨a, as, ha⟩ := List.exists_cons_of_ne_nil hn
  rw [ha, Cursor.start, List.cons_append] at he
  rw [ha, Cursor.Begun, Cursor.past, ← (List.cons.inj he).1]
  simp [hb]

theorem parse_of_cuts {text : String} {c : Char} {textEnd : Nat} {tree : Diagram}
    (ht : text.toList = c :: cs) (hb : isBlank c = false) (hc : c ≠ '%')
    (h : k.Cuts (c :: cs) ts []) (htree : k.grammar.tree textEnd ts = (some tree, [])) :
    k.parse text = .ok tree := by
  obtain ⟨us, d, hw, hts, hd⟩ : ∃ us d,
      k.grammar.lexicon.Walks (.start (c :: cs)) us [] d ∧ TokensAlike ts us ∧ d.after = [] := by
    cases h with
    | skip hm hh h =>
      rw [← match?_start hc] at hm
      obtain ⟨us, d, hw, hts, hd, -⟩ :=
        h.exists_walk (c := Cursor.past _ _ _) rfl (begun_start hb hm)
      exact ⟨us, d, .skip hm hh hw, hts, hd⟩
    | take hm hh h =>
      rw [← match?_start hc] at hm
      obtain ⟨us, d, hw, hts, hd, -⟩ :=
        h.exists_walk (c := Cursor.past _ _ _) rfl (begun_start hb hm)
      exact ⟨_, d, .take hm hh hw, .cons ⟨rfl, .inl rfl⟩ hts, hd⟩
  have hlex : k.grammar.lexicon.tokenize text.toList = ⟨us, []⟩ := by
    rw [ht, Lexicon.tokenize, hw.scan_eq, Lexicon.scan_of_end hd, List.append_nil, List.append_nil]
  refine parse_eq_ok_iff.2 ⟨by rw [hlex], ?_⟩
  rw [hlex]
  exact k.sameness.tree_eq k.endsLine_statement hts htree _

theorem next?_feed (cs : List Char) :
    k.next? ('\n' :: cs) = some ⟨.newline, ['\n'], cs⟩ := rfl

theorem next?_of_unmarked {c : Char} (hs : isSpace c = false) (hb : isBreak c = false)
    {cs : List Char} (hm : after? commentMark (c :: cs) = none) :
    k.next? (c :: cs) = Shape.first? k.shapes (c :: cs) := by
  rw [next?, Shape.first?_append_of_none (Shape.first?_base_of_unmarked hs hb hm)]

theorem next?_of_solid {c : Char} (hs : isSpace c = false) (hb : isBreak c = false)
    (hc : c ≠ '%') (cs : List Char) : k.next? (c :: cs) = Shape.first? k.shapes (c :: cs) :=
  next?_of_unmarked hs hb (by simp [commentMark, after?, hc.symm])

theorem next?_of_digit {d : Char} (h : d.isDigit = true) (cs : List Char) :
    k.next? (d :: cs) = Shape.first? k.shapes (d :: cs) :=
  next?_of_solid (by simp [isSpace, ne_of_isDigit h]) (by simp [isBreak, ne_of_isDigit h])
    (ne_of_isDigit h (by decide)) cs

theorem next?_space {c : Char} (hs : isSpace c = false) (hr : c ≠ '\r') (hc : c ≠ '%')
    (cs : List Char) : k.next? (' ' :: c :: cs) = some ⟨.whitespace, [' '], c :: cs⟩ := by
  have hspace : isSpace ' ' = true := rfl
  simp [next?, Shape.first?, Shape.base, Shape.match?, Pattern.nonempty, Pattern.blockComment,
    Pattern.lineComment, Pattern.whitespace, Pattern.seq, Pattern.many, Pattern.literal,
    Pattern.commentMark, Pattern.blanks, Text.after?, hspace, hs, hr, hc.symm]

/-- Here the line is over: the text ends, or a line feed stands here. -/
def LineOver (rest : List Char) : Prop :=
  rest = [] ∨ ∃ cs, rest = '\n' :: cs

/-- Before what is accepted by `ok`, the rules cut the text into these tokens. -/
def Writes (k : Kind) (ok : List Char → Prop) (text : List Char) (run : List Token) : Prop :=
  ∀ rest, ok rest → k.Cuts (text ++ rest) run rest

theorem writes_nil (ok : List Char → Prop) : k.Writes ok [] [] :=
  fun rest _ ↦ .done rest

theorem Writes.append {ok ok' : List Char → Prop} {text text' : List Char} {run run' : List Token}
    (h : k.Writes ok text run) (h' : k.Writes ok' text' run')
    (hok : ∀ rest, ok' rest → ok (text' ++ rest)) :
    k.Writes ok' (text ++ text') (run ++ run') := by
  intro rest hr
  rw [List.append_assoc]
  exact (h _ (hok rest hr)).trans (h' rest hr)

theorem Writes.mono {ok ok' : List Char → Prop} {text : List Char} {run : List Token}
    (h : k.Writes ok text run) (hok : ∀ rest, ok' rest → ok rest) : k.Writes ok' text run :=
  fun rest hr ↦ h rest (hok rest hr)

def Solid (rest : List Char) : Prop :=
  ∃ c cs, rest = c :: cs ∧ isSpace c = false ∧ c ≠ '\r' ∧ c ≠ '%'

theorem solid_numeral (h : Numeral cs) (rest : List Char) : Solid (cs ++ rest) := by
  obtain ⟨d, ds, rfl, hd⟩ := h.exists_cons
  exact ⟨d, ds ++ rest, rfl, by simp [isSpace, ne_of_isDigit hd], ne_of_isDigit hd (by decide),
    ne_of_isDigit hd (by decide)⟩

theorem writes_space : k.Writes Solid [' '] [] := by
  rintro rest ⟨c, cs, rfl, hs, hr, hc⟩
  exact .skip (next?_space hs hr hc cs) rfl (.done _)

theorem writes_of_next? {ok : List Char → Prop} {kind : Token.Kind} {text : List Char}
    (hk : kind.isHidden = false)
    (h : ∀ rest, ok rest → k.next? (text ++ rest) = some ⟨kind, text, rest⟩) :
    k.Writes ok text [.unplaced kind text] :=
  fun rest hr ↦ .take (h rest hr) hk (.done rest)

/-- The line opens a text of the kind. -/
structure OpensLine (k : Kind) (line : List Char) (header : k.grammar.Header) : Prop where
  head : ∃ c cs, line = c :: cs ∧ isBlank c = false ∧ c ≠ '%'
  cuts : ∃ run, k.Writes LineOver line run ∧ ∀ tail, StartsAtBreak tail →
    ∃ rest, k.grammar.opening (run ++ tail) = .accepted header rest ∧ lineRuns rest = lineRuns tail

/-- The line is read as this item. -/
def ReadsLine (k : Kind) (line : List Char) (item : k.grammar.Item) : Prop :=
  ∃ run, run ≠ [] ∧ OneLine run ∧ k.Writes LineOver line run ∧
    k.grammar.statement run = .accepted item []

/-- The rules cut the text into lines, and they are read as these items. -/
def CutsLines (k : Kind) (cs : List Char) (items : List k.grammar.Item) : Prop :=
  ∃ ts, k.Cuts cs ts [] ∧ StartsAtBreak ts ∧
    List.Forall₂ (fun run item ↦ k.grammar.statement run = .accepted item []) (lineRuns ts) items

section Lines

variable {β : Type} {line : β → List Char} {item : β → k.grammar.Item} {ending : List Char}

theorem lineOver_lines (line : β → List Char) (xs : List β)
    (he : ending = [] ∨ ending = ['\n']) :
    LineOver (xs.flatMap (fun x ↦ '\n' :: line x) ++ ending) := by
  cases xs with
  | cons x xs => exact .inr ⟨_, rfl⟩
  | nil =>
    rcases he with rfl | rfl
    · exact .inl rfl
    · exact .inr ⟨[], rfl⟩

theorem startsAtBreak_feed : StartsAtBreak (.feed :: ts) := by
  rintro t ⟨⟩
  rfl

theorem cutsLines_ending (he : ending = [] ∨ ending = ['\n']) : k.CutsLines ending [] := by
  rcases he with rfl | rfl
  · exact ⟨[], .done [], nofun, .nil⟩
  · exact ⟨[.feed], .take (next?_feed []) rfl (.done []), startsAtBreak_feed, .nil⟩

theorem CutsLines.cons {text : List Char} {run : List Token} {first : k.grammar.Item}
    {items : List k.grammar.Item} (h : k.CutsLines rest items) (hn : run ≠ []) (hr : OneLine run)
    (hcut : k.Cuts (text ++ rest) run rest)
    (hread : k.grammar.statement run = .accepted first []) :
    k.CutsLines ('\n' :: (text ++ rest)) (first :: items) := by
  obtain ⟨ts, hts, hb, hitems⟩ := h
  refine ⟨.feed :: (run ++ ts), .take (next?_feed _) rfl (hcut.trans hts), startsAtBreak_feed, ?_⟩
  rw [lineRuns_newline rfl, lineRuns_append hr hn hb]
  exact .cons hread hitems

theorem cutsLines_of_lines {xs : List β} (h : ∀ x ∈ xs, k.ReadsLine (line x) (item x))
    (he : ending = [] ∨ ending = ['\n']) :
    k.CutsLines (xs.flatMap (fun x ↦ '\n' :: line x) ++ ending) (xs.map item) := by
  induction xs with
  | nil => exact cutsLines_ending he
  | cons x xs ih =>
    obtain ⟨hx, hxs⟩ := List.forall_mem_cons.1 h
    obtain ⟨run, hn, hr, hcut, hread⟩ := hx
    rw [List.flatMap_cons, List.append_assoc]
    exact (ih hxs).cons hn hr (hcut _ (lineOver_lines line xs he)) hread

end Lines

end Kind

variable {α : Type}

theorem statements_of_accepted {statement : Production α} (hs : Production.EndsLine statement)
    (textEnd : Nat) {ts : List Token} {items : List α}
    (h : List.Forall₂ (fun run item ↦ statement run = .accepted item []) (lineRuns ts) items) :
    faultsOf (statements statement textEnd ts) = [] ∧
      itemsOf (statements statement textEnd ts) = items := by
  have hcount {runs : List (List Token)} {items : List α}
      (h : List.Forall₂ (fun run item ↦ statement run = .accepted item []) runs items) :
      runs.countP (fun run ↦ (statement run).item?.isNone) = 0 ∧
        (runs.filterMap fun run ↦ (statement run).item?) = items := by
    induction h with
    | nil => exact ⟨rfl, rfl⟩
    | cons hread _ ih =>
      rw [List.countP_cons, List.filterMap_cons, hread]
      exact ⟨ih.1, congrArg _ ih.2⟩
  have hy := forall₂_yields hs textEnd ts
  obtain ⟨hfaults, hitems⟩ := hcount h
  exact ⟨List.length_eq_zero_iff.1 ((length_faultsOf_of_yields hy).trans hfaults),
    (itemsOf_of_yields hy).trans hitems⟩

def onLines (header : String) (lines : List String) : String :=
  header ++ String.join (lines.map ("\n" ++ ·))

theorem Kind.parse_of_cut_lines {k : Kind} {text : String} {word body : List Char}
    {items : List k.grammar.Item} {header : k.grammar.Header} {tree : Diagram}
    (htext : text.toList = word ++ body) (hword : k.OpensLine word header) (hover : LineOver body)
    (hlines : k.CutsLines body items)
    (ha : k.grammar.assemble header items = (tree, [])) (hl : k.grammar.lacks tree = none) :
    k.parse text = .ok (k.grammar.complete tree) := by
  obtain ⟨⟨c, cs, hhead, hb, hc⟩, run, hcut, hopen⟩ := hword
  obtain ⟨ts, hts, hbreak, hitems⟩ := hlines
  obtain ⟨rest, ho, hruns⟩ := hopen ts hbreak
  have hcuts := (hcut _ hover).trans hts
  obtain ⟨hf, hi⟩ := statements_of_accepted k.endsLine_statement 0 (hruns.symm ▸ hitems)
  have htree : k.grammar.tree 0 (run ++ ts) = (some (k.grammar.complete tree), []) :=
    Grammar.tree_eq_iff.2 ⟨header, rest, ho,
      Grammar.body_eq_iff.2 ⟨hf, tree, hi.symm ▸ ha, hl, rfl⟩⟩
  rw [hhead] at hcuts htext
  exact parse_of_cuts htext hb hc hcuts htree

theorem toList_onLines {β : Type} (word ending : String) (line : β → String) (xs : List β) :
    (onLines word (xs.map line) ++ ending).toList =
      word.toList ++ (xs.flatMap (fun x ↦ '\n' :: (line x).toList) ++ ending.toList) := by
  simp [onLines, List.flatMap_map]

theorem toList_of_mem_endings {ending : String} (he : ending ∈ ["", "\n"]) :
    ending.toList = [] ∨ ending.toList = ['\n'] := by
  simp only [List.mem_cons, List.not_mem_nil, or_false] at he
  rcases he with rfl | rfl
  · exact .inl rfl
  · exact .inr rfl

/-- A text made of a header and of lines, each of them read as an item, is accepted for what the
items make. -/
theorem Kind.parse_of_lines {k : Kind} {β : Type} {word ending : String} {xs : List β}
    {line : β → String} {item : β → k.grammar.Item} {header : k.grammar.Header} {tree : Diagram}
    (hword : k.OpensLine word.toList header)
    (hlines : ∀ x ∈ xs, k.ReadsLine (line x).toList (item x)) (he : ending ∈ ["", "\n"])
    (ha : k.grammar.assemble header (xs.map item) = (tree, []))
    (hl : k.grammar.lacks tree = none) :
    k.parse (onLines word (xs.map line) ++ ending) = .ok (k.grammar.complete tree) := by
  have hending := toList_of_mem_endings he
  exact parse_of_cut_lines (toList_onLines word ending line xs) hword
    (lineOver_lines (fun x ↦ (line x).toList) xs hending) (cutsLines_of_lines hlines hending) ha hl

end DiagramText
