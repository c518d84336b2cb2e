import DiagramText.Proofs.Written

namespace DiagramText

open Text (between? unpaired)

namespace Text

variable {mark : Char} {cs : List Char}

def doubled (mark : Char) (cs : List Char) : List Char :=
  cs.flatMap fun c ↦ if c = mark then [mark, mark] else [c]

@[simp] theorem doubled_nil : doubled mark [] = [] := rfl

@[simp] theorem doubled_mark (cs : List Char) :
    doubled mark (mark :: cs) = mark :: mark :: doubled mark cs := by
  simp [doubled]

theorem doubled_cons {c : Char} (h : c ≠ mark) (cs : List Char) :
    doubled mark (c :: cs) = c :: doubled mark cs := by
  simp [doubled, h]

theorem doubled_eq_nil_iff : doubled mark cs = [] ↔ cs = [] := by
  cases cs with
  | nil => simp
  | cons c cs =>
    by_cases hc : c = mark
    · simp [hc]
    · simp [doubled_cons hc]

theorem unpaired_doubled (mark : Char) (cs : List Char) : unpaired mark (doubled mark cs) = cs := by
  have hcons {c : Char} (hc : c ≠ mark) (ds : List Char) :
      unpaired mark (c :: ds) = c :: unpaired mark ds := by
    cases ds with
    | nil => rfl
    | cons d ds => simp [unpaired, hc]
  induction cs with
  | nil => rfl
  | cons c cs ih =>
    by_cases hc : c = mark
    · rw [hc, doubled_mark, unpaired, if_pos ⟨rfl, rfl⟩, ih]
    · rw [doubled_cons hc, hcons hc, ih]

end Text

namespace Pattern

variable {cs rest : List Char}

theorem quotedRest_doubled (hr : rest.head? ≠ some '"') (cs : List Char) :
    quotedRest (Text.doubled '"' cs ++ '"' :: rest) =
      some (Text.doubled '"' cs ++ ['"'], rest) := by
  induction cs with
  | nil =>
    cases rest with
    | nil => rfl
    | cons c rest =>
      have hc : c ≠ '"' := by simpa using hr
      simp [quotedRest, hc]
  | cons c cs ih =>
    by_cases hc : c = '"'
    · simp [hc, quotedRest, ih]
    · simp [Text.doubled_cons hc, quotedRest, hc, ih]

theorem sankeyNode_doubled (hn : cs ≠ []) (hr : rest.head? ≠ some '"') :
    sankeyNode ('"' :: (Text.doubled '"' cs ++ '"' :: rest)) =
      some ('"' :: (Text.doubled '"' cs ++ ['"']), rest) := by
  have hlen : 0 < (Text.doubled '"' cs).length :=
    List.length_pos_iff.2 (mt Text.doubled_eq_nil_iff.1 hn)
  have hlong : 2 < ('"' :: (Text.doubled '"' cs ++ ['"'])).length := by
    simp only [List.length_cons, List.length_append, List.length_nil]
    omega
  have hseq : (literal ['"']).seq quotedRest ('"' :: (Text.doubled '"' cs ++ '"' :: rest)) =
      some ('"' :: (Text.doubled '"' cs ++ ['"']), rest) := by
    simp [seq, literal, Text.after?, quotedRest_doubled hr]
  have hquote : Text.startsWith ['"'] ('"' :: (Text.doubled '"' cs ++ '"' :: rest)) = true := rfl
  rw [sankeyNode, hquote, if_pos rfl, quotedField, hseq, Option.filter_some, if_pos]
  exact decide_eq_true hlong

theorem not_endsLine_of_doubled {ds rest' : List Char} (hd : '"' ∉ ds)
    (h : Text.doubled '"' cs ++ '"' :: ',' :: rest = ds ++ '"' :: rest') :
    endsLine rest' = false := by
  induction cs generalizing ds with
  | nil =>
    cases ds with
    | nil =>
      obtain ⟨-, rfl⟩ := List.cons.inj h
      rfl
    | cons d ds => exact absurd (List.cons.inj h).1 fun he ↦ hd (he ▸ List.mem_cons_self)
  | cons c cs ih =>
    by_cases hc : c = '"'
    · rw [hc, Text.doubled_mark] at h
      cases ds with
      | nil =>
        obtain ⟨-, rfl⟩ := List.cons.inj h
        rfl
      | cons d ds => exact absurd (List.cons.inj h).1 fun he ↦ hd (he ▸ List.mem_cons_self)
    · rw [Text.doubled_cons hc] at h
      cases ds with
      | nil => exact absurd (List.cons.inj h).1 hc
      | cons d ds => exact ih (mt (List.mem_cons_of_mem d) hd) (List.cons.inj h).2

theorem not_mem_of_digits {taken : List Char} {z : Char} (hz : z.isDigit = false) (hp : z ≠ '.')
    (h : digits cs = some (taken, rest)) : z ∉ taken := by
  have hrun {as ds r : List Char} (h : many1 Char.isDigit as = some (ds, r)) : z ∉ ds := by
    intro hm
    unfold many1 at h
    split at h
    · cases h
    · obtain ⟨rfl, -⟩ := Prod.mk.inj (Option.some.inj h)
      rw [List.mem_takeWhile_imp hm] at hz
      cases hz
  obtain ⟨ds, mid, es, hds, hes, rfl⟩ := seq_eq_some_iff.1 h
  have hfraction : z ∉ es := by
    unfold Pattern.optional at hes
    cases hp : (literal ['.']).seq (many1 Char.isDigit) mid with
    | none =>
      rw [hp] at hes
      obtain ⟨rfl, -⟩ := Prod.mk.inj (Option.some.inj hes)
      exact List.not_mem_nil
    | some m =>
      rw [hp] at hes
      obtain rfl := Option.some.inj hes
      obtain ⟨point, _, fs, hpoint, hfs, rfl⟩ := seq_eq_some_iff.1 hp
      obtain ⟨rfl, -⟩ := literal_eq_some_iff.1 hpoint
      exact fun hm ↦ hrun hfs (List.mem_of_ne_of_mem ‹z ≠ '.'› hm)
  exact fun hm ↦ (List.mem_append.1 hm).elim (hrun hds) hfraction

/-- A quoted field that a comma follows is no value, though it may hold a number. -/
theorem sankeyValue_doubled (cs rest : List Char) :
    sankeyValue ('"' :: (Text.doubled '"' cs ++ '"' :: ',' :: rest)) = none := by
  cases hv : sankeyValue ('"' :: (Text.doubled '"' cs ++ '"' :: ',' :: rest)) with
  | none => rfl
  | some m =>
    obtain ⟨taken, rest'⟩ := m
    obtain ⟨hp, hends⟩ := Option.filter_eq_some_iff.1 hv
    have hquoted : (literal ['"']).seq (digits.seq (literal ['"']))
        ('"' :: (Text.doubled '"' cs ++ '"' :: ',' :: rest)) = some (taken, rest') := hp
    obtain ⟨_, _, _, hopen, hrest, -⟩ := seq_eq_some_iff.1 hquoted
    obtain ⟨ds, _, _, hds, hclose, -⟩ := seq_eq_some_iff.1 hrest
    obtain ⟨-, hopen⟩ := literal_eq_some_iff.1 hopen
    obtain ⟨-, rfl⟩ := literal_eq_some_iff.1 hclose
    obtain ⟨-, rfl⟩ := List.cons.inj hopen
    have hends : endsLine rest' = true := hends
    have hmore : endsLine rest' = false :=
      not_endsLine_of_doubled (not_mem_of_digits (by decide) (by decide) hds)
        (splits_digits _ _ _ hds)
    rw [hmore] at hends
    cases hends

end Pattern

namespace Kind

variable {cs rest : List Char}

theorem sankey_next?_field (hn : cs ≠ []) (rest : List Char) :
    sankey.next? ('"' :: (Text.doubled '"' cs ++ '"' :: ',' :: rest)) =
      some ⟨.sankeyNode, '"' :: (Text.doubled '"' cs ++ ['"']), ',' :: rest⟩ := by
  have hvalue : (⟨.sankeyValue, Pattern.sankeyValue⟩ : Shape).match?
      ('"' :: (Text.doubled '"' cs ++ '"' :: ',' :: rest)) = none :=
    Shape.match?_of_none (Pattern.sankeyValue_doubled cs rest)
  rw [next?_of_solid rfl rfl (by decide), shapes, Shape.first?_append_of_none rfl,
    Shape.first?_cons_of_none hvalue]
  refine Shape.first?_cons_of_some (Shape.match?_eq_some_iff.2 ⟨rfl, ?_, by simp⟩)
  exact Pattern.sankeyNode_doubled hn (by simp)

theorem sankey_next?_comma (rest : List Char) :
    sankey.next? (',' :: rest) = some ⟨.symbol .comma, [','], rest⟩ := rfl

theorem sankey_next?_value (h : Numeral cs) (hr : LineOver rest) :
    sankey.next? (cs ++ rest) = some ⟨.sankeyValue, cs, rest⟩ := by
  have hstop : ∀ c ∈ rest.head?, c.isDigit = false ∧ c ≠ '.' := by
    rcases hr with rfl | ⟨rest, rfl⟩
    · nofun
    · rintro c ⟨⟩
      decide
  have hends : Pattern.endsLine rest = true := by
    rcases hr with rfl | ⟨rest, rfl⟩ <;> rfl
  have hvalue : Pattern.sankeyValue (cs ++ rest) = some (cs, rest) := by
    rw [Pattern.sankeyValue, Pattern.whenRest, Pattern.alt, h.digits_append hstop]
    simp [Option.filter_some, hends]
  obtain ⟨d, ds, rfl, hd⟩ := h.exists_cons
  have hfront : Shape.first? ([.keyword .sankeyBeta, .keyword .sankey] ++ Shape.annotations)
      (d :: (ds ++ rest)) = none := by
    have hs : d ≠ 's' := ne_of_isDigit hd (by decide)
    rw [List.cons_append, Shape.first?_cons_of_none, List.cons_append, Shape.first?_cons_of_none]
    · exact Shape.first?_annotations_of_head (ne_of_isDigit hd (by decide))
        (ne_of_isDigit hd (by decide)) _
    · exact Shape.match?_keyword_of_head rfl hs.symm _
    · exact Shape.match?_keyword_of_head rfl hs.symm _
  rw [List.cons_append, next?_of_digit hd, shapes, Shape.first?_append_of_none hfront]
  exact Shape.first?_cons_of_some (Shape.match?_eq_some_iff.2 ⟨rfl, hvalue, by simp⟩)

end Kind

/-- A flow as it is written: with the digits of its value. -/
structure Sankey.Record where
  source : String
  target : String
  digits : String
  value : Binary64
  source_ne : source ≠ ""
  target_ne : target ≠ ""
  numeral : Numeral digits.toList
  value_eq : Binary64.ofText? digits.toList = some value

namespace Sankey.Record

def field (s : String) : String :=
  "\"" ++ String.ofList (Text.doubled '"' s.toList) ++ "\""

def line (r : Record) : String :=
  field r.source ++ "," ++ field r.target ++ "," ++ r.digits

def link (r : Record) : Sankey.Link :=
  ⟨r.source, r.target, r.value⟩

def fieldToken (s : String) : Token :=
  .unplaced .sankeyNode (field s).toList

def comma : Token :=
  .unplaced (.symbol .comma) [',']

def run (r : Record) : List Token :=
  [fieldToken r.source, comma, fieldToken r.target, comma,
    .unplaced .sankeyValue r.digits.toList]

theorem toList_field (s : String) :
    (field s).toList = '"' :: (Text.doubled '"' s.toList ++ ['"']) := by
  simp [field]

theorem writes_field {s : String} (hs : s ≠ "") :
    Kind.sankey.Writes (fun rest ↦ ∃ cs, rest = ',' :: cs) (field s).toList [fieldToken s] := by
  rintro _ ⟨rest, rfl⟩
  have hn : s.toList ≠ [] := by simpa using hs
  have hfield : (field s).toList ++ ',' :: rest =
      '"' :: (Text.doubled '"' s.toList ++ '"' :: ',' :: rest) := by
    simp [toList_field]
  rw [hfield, fieldToken, toList_field]
  exact .take (Kind.sankey_next?_field hn rest) rfl (.done _)

theorem writes_line (r : Record) : Kind.sankey.Writes Kind.LineOver r.line.toList r.run := by
  have hcomma : Kind.sankey.Writes (fun _ ↦ True) [','] [comma] :=
    Kind.writes_of_next? rfl fun rest _ ↦ Kind.sankey_next?_comma rest
  have hvalue : Kind.sankey.Writes Kind.LineOver r.digits.toList
      [.unplaced .sankeyValue r.digits.toList] :=
    Kind.writes_of_next? rfl fun rest hr ↦ Kind.sankey_next?_value r.numeral hr
  have hrest := (writes_field r.target_ne).append (hcomma.append hvalue fun _ _ ↦ trivial)
    fun rest _ ↦ ⟨_, rfl⟩
  have hline : r.line.toList = (field r.source).toList ++
      ([','] ++ ((field r.target).toList ++ ([','] ++ r.digits.toList))) := by
    simp [line]
  rw [hline]
  exact (writes_field r.source_ne).append (hcomma.append hrest fun _ _ ↦ trivial)
    fun rest _ ↦ ⟨_, rfl⟩

open Grammar.Sankey (reader fieldText)

theorem reader_fieldToken (s : String) : reader (fieldToken s) = .ok (.text s) := by
  have htext : fieldText (field s).toList = s.toList := by
    have hinner : between? ['"'] ['"'] (field s).toList = some (Text.doubled '"' s.toList) := by
      rw [toList_field]
      exact Text.between?_eq ['"'] _ ['"']
    rw [fieldText, hinner]
    exact Text.unpaired_doubled '"' s.toList
  have hread : reader (fieldToken s) = .ok (.ofChars (fieldText (field s).toList)) := by
    simp [reader, fieldToken, Token.unplaced]
  rw [hread, htext, Value.ofChars, String.ofList_toList]

theorem reader_value (r : Record) :
    reader (.unplaced .sankeyValue r.digits.toList) = .ok (.number r.value) := by
  have hquote : ∀ c ∈ r.digits.toList, decide (c = '"') = false := by
    intro c hc
    rcases r.numeral.digit_or_point c hc with hd | rfl
    · exact decide_eq_false fun he ↦ by simp [he] at hd
    · rfl
  simp [reader, Token.unplaced, Text.dropWhile_eq_self hquote, Text.dropWhileEnd_eq_self hquote,
    Reader.numberOf, r.value_eq, Except.map]

theorem statement_of_nodes (r : Record) {s t : Token} (hs : s.kind = .sankeyNode)
    (ht : t.kind = .sankeyNode) (hsource : reader s = .ok (.text r.source))
    (htarget : reader t = .ok (.text r.target)) :
    Kind.sankey.grammar.statement [s, comma, t, comma, .unplaced .sankeyValue r.digits.toList] =
      .accepted (.entry r.link) [] := by
  have hcomma (ts : List Token) : Production.symbol .comma (comma :: ts) = .accepted comma ts := rfl
  have hvalue : Production.number reader .sankeyValue "flow value"
      [.unplaced .sankeyValue r.digits.toList] = .accepted ⟨r.value, default⟩ [] :=
    Production.number_cons rfl r.reader_value _ []
  have hlink : Grammar.Sankey.link [s, comma, t, comma, .unplaced .sankeyValue r.digits.toList] =
      .accepted r.link [] := by
    simp only [Grammar.Sankey.link, Production.bind_apply, Production.text_cons hs hsource,
      Production.text_cons ht htarget, hcomma, hvalue]
    rfl
  have hentry : Grammar.Sankey.entry [s, comma, t, comma, .unplaced .sankeyValue r.digits.toList] =
      .accepted r.link [] := by
    simp only [Grammar.Sankey.entry, Production.bind_apply, Production.nextKind_eq, List.head?_cons,
      Option.map_some, hs, hlink]
  exact Statement.production_of_entry (by rw [hs]; rfl) hentry

theorem statement_run (r : Record) :
    Kind.sankey.grammar.statement r.run = .accepted (.entry r.link) [] :=
  r.statement_of_nodes rfl rfl (reader_fieldToken _) (reader_fieldToken _)

theorem readsLine (r : Record) : Kind.sankey.ReadsLine r.line.toList (.entry r.link) :=
  ⟨r.run, by simp [run], by simp [OneLine, run, fieldToken, comma, Token.unplaced, Token.isNewline],
    r.writes_line, r.statement_run⟩

end Sankey.Record

theorem Kind.sankey_next?_header {rest : List Char} (hr : LineOver rest) :
    sankey.next? ("sankey-beta".toList ++ rest) =
      some ⟨.keyword .sankeyBeta, "sankey-beta".toList, rest⟩ := by
  rcases hr with rfl | ⟨rest, rfl⟩ <;> rfl

theorem Kind.sankey_opensLine : sankey.OpensLine "sankey-beta".toList () where
  head := ⟨'s', _, rfl, by decide, by decide⟩
  cuts := ⟨[.unplaced (.keyword .sankeyBeta) "sankey-beta".toList],
    writes_of_next? rfl fun _ ↦ sankey_next?_header,
    fun tail ht ↦ ⟨tail.dropWhile Token.isNewline, Production.endOfLine_of_break ht,
      lineRuns_dropWhile tail⟩⟩

theorem firstOccurrences_eq_eraseDups (names : List String) :
    firstOccurrences names = names.eraseDups := by
  -- What was seen goes before, and nothing of it comes again.
  have hseen (seen : List String) :
      names.foldl (fun seen name ↦ if name ∈ seen then seen else seen ++ [name]) seen =
        seen ++ (names.filter (· ∉ seen)).eraseDups := by
    induction names generalizing seen with
    | nil => simp
    | cons name names ih =>
      by_cases hn : name ∈ seen
      · rw [List.foldl_cons, if_pos hn, ih, List.filter_cons_of_neg (by simpa using hn)]
      · have hfilter : (names.filter (· ∉ seen)).filter (fun b ↦ !b == name) =
            names.filter (· ∉ seen ++ [name]) := by
          rw [List.filter_filter]
          refine List.filter_congr fun b _ ↦ ?_
          by_cases hb : b = name <;> simp [hb]
        rw [List.foldl_cons, if_neg hn, ih, List.filter_cons_of_pos (by simpa using hn),
          List.eraseDups_cons, hfilter, List.append_assoc, List.singleton_append]
  rw [firstOccurrences, hseen]
  simp

namespace Sankey.Record

theorem assemble_entries (records : List Record) :
    Kind.sankey.grammar.assemble () (records.map fun r ↦ Statement.entry r.link) =
      (.sankey { links := records.map link }, []) := by
  have hassemble : Grammar.Sankey.assemble () (records.map fun r ↦ Statement.entry r.link) =
      (.sankey { links := records.map link }, []) := by
    rw [Grammar.Sankey.assemble, Statement.entries_map, Statement.annotations_map]
  exact hassemble

theorem lacks_of_ne_nil {records : List Record} (hn : records ≠ []) :
    Kind.sankey.grammar.lacks (.sankey { links := records.map link }) = none := by
  obtain ⟨r, rs, rfl⟩ := List.exists_cons_of_ne_nil hn
  rfl

theorem complete_links (records : List Record) :
    Kind.sankey.grammar.complete (.sankey { links := records.map link }) =
      .sankey
        { links := records.map link
          nodes := (records.flatMap fun r ↦ [r.source, r.target]).eraseDups } := by
  have hnodes : firstOccurrences (endpoints (records.map link)) =
      (records.flatMap fun r ↦ [r.source, r.target]).eraseDups := by
    rw [firstOccurrences_eq_eraseDups, endpoints, List.flatMap_map]
    rfl
  rw [← hnodes]
  rfl

end Sankey.Record

open Sankey in
/-- Flows written as records are read back, whatever text their fields hold. -/
theorem Sankey.parse_records {records : List Record} (hn : records ≠ []) {ending : String}
    (he : ending ∈ ["", "\n"]) :
    Kind.sankey.parse (onLines "sankey-beta" (records.map Record.line) ++ ending) =
      .ok (.sankey
        { links := records.map Record.link
          nodes := (records.flatMap fun r ↦ [r.source, r.target]).eraseDups }) := by
  rw [← Record.complete_links]
  exact Kind.parse_of_lines Kind.sankey_opensLine (fun r _ ↦ r.readsLine) he
    (Record.assemble_entries records) (Record.lacks_of_ne_nil hn)

theorem numeral_half : Numeral "1.5".toList :=
  have h : Numeral (['1'] ++ '.' :: ['5']) :=
    .point (by simp) (List.forall_mem_singleton.2 rfl) (by simp) (List.forall_mem_singleton.2 rfl)
  h

/-- A number before a quote, a comma, a comment mark and a line end in the fields. -/
def quotedRecords : List Sankey.Record :=
  [⟨"5\" disk", "%% c,\nd", "1.5", ⟨false, 6755399441055744, -52, by decide⟩, by decide, by decide,
      numeral_half, by decide +kernel⟩]

theorem Sankey.parse_records_quoted :
    Kind.sankey.parse "sankey-beta\n\"5\"\" disk\",\"%% c,\nd\",1.5\n" =
      .ok (.sankey
        { links := [⟨"5\" disk", "%% c,\nd", ⟨false, 6755399441055744, -52, by decide⟩⟩]
          nodes := ["5\" disk", "%% c,\nd"] }) :=
  @parse_records quotedRecords (by simp [quotedRecords]) "\n" (by decide)

end DiagramText
