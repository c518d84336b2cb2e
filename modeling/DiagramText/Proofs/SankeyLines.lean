import DiagramText.Proofs.SankeyNames

namespace DiagramText

open Text (after?)
open Grammar.Sankey (entry fieldText link reader)
open Kind (LineOver)
open Production (bind_eq_accepted_iff endOfLine_eq_accepted keywordOf_eq_accepted number_eq_accepted
  text_eq_accepted token_eq_accepted)

namespace Sankey

def Record.plainLine (r : Record) : String :=
  r.source ++ "," ++ r.target ++ "," ++ r.digits

def names (records : List Record) : List (List Char) :=
  records.flatMap fun r ↦ [r.source.toList, r.target.toList]

def nameToken (s : String) : Token :=
  .unplaced .sankeyNode s.toList

def Record.plainRun (r : Record) : List Token :=
  [nameToken r.source, Record.comma, nameToken r.target, Record.comma,
    .unplaced .sankeyValue r.digits.toList]

section Closes

variable {rest : List Char} {later : List (List Char)}

theorem Closes.append {cs : List Char} (h : Closes rest later) (hc : '\x7d' ∉ cs) :
    Closes (cs ++ rest) later := by
  rw [Closes, List.mem_append, or_iff_right hc]
  exact h

theorem Closes.cons {c : Char} (h : Closes rest later) (hc : '\x7d' ≠ c) :
    Closes (c :: rest) later := by
  rw [Closes, List.mem_cons, or_iff_right hc]
  exact h

theorem Closes.name (h : Closes rest later) (name : List Char) :
    Closes (name ++ ',' :: rest) (name :: later) := by
  have hcomma : '\x7d' ∈ ',' :: rest ↔ _ := h.cons (by decide)
  rw [Closes, List.mem_append, hcomma]
  simp

theorem Record.closes_digits (r : Record) (h : Closes rest later) :
    Closes (r.digits.toList ++ rest) later := by
  refine h.append fun hm ↦ ?_
  rcases r.numeral.digit_or_point _ hm with hd | he
  · cases hd
  · cases he

theorem Record.toList_plainLine (r : Record) (rest : List Char) :
    r.plainLine.toList ++ rest =
      r.source.toList ++ ',' :: (r.target.toList ++ ',' :: (r.digits.toList ++ rest)) := by
  simp [plainLine]

theorem closes_lines {ending : List Char} (he : ending = [] ∨ ending = ['\n'])
    (records : List Record) :
    Closes (records.flatMap (fun r ↦ '\n' :: r.plainLine.toList) ++ ending) (names records) := by
  induction records with
  | nil => rcases he with rfl | rfl <;> simp [Closes, names]
  | cons r records ih =>
    have hline := ((r.closes_digits ih).name r.target.toList).name r.source.toList
    rw [List.flatMap_cons, List.append_assoc, List.cons_append, Record.toList_plainLine]
    exact hline.cons (by decide)

end Closes

section Cuts

variable {rest : List Char} {later : List (List Char)} {s : String}

theorem cuts_name (hs : IsName s) (hn : s ≠ "") (hr : Closes rest later)
    (hm : isMisread later s.toList = false) :
    Kind.sankey.Cuts (s.toList ++ ',' :: rest) [nameToken s, Record.comma] rest := by
  have hother : Shape.first? otherShapes (s.toList ++ ',' :: rest) = none := by
    rw [← Option.not_isSome_iff_eq_none, isSome_first?_otherShapes hs.2.1 hr, hm]
    exact Bool.false_ne_true
  have hname : Kind.sankey.next? (s.toList ++ ',' :: rest) =
      some ⟨.sankeyNode, s.toList, ',' :: rest⟩ := by
    rw [next?_name hs hn, hother, Option.none_or]
  exact .take hname rfl (.take (Kind.sankey_next?_comma rest) rfl (.done rest))

theorem exists_match_of_misread (hs : IsName s) (hn : s ≠ "") (hr : Closes rest later)
    (hm : isMisread later s.toList = true) :
    ∃ m, Kind.sankey.next? (s.toList ++ ',' :: rest) = some m ∧
      ∃ shape ∈ otherShapes, shape.kind = m.kind := by
  rw [← isSome_first?_otherShapes hs.2.1 hr] at hm
  obtain ⟨m, hfirst⟩ := Option.isSome_iff_exists.1 hm
  obtain ⟨shape, hshape, hmatch⟩ := List.exists_of_findSome?_eq_some hfirst
  refine ⟨m, ?_, shape, hshape, (Shape.match?_eq_some_iff.1 hmatch).1⟩
  rw [next?_name hs hn, hfirst, Option.some_or]

variable {r : Record}

theorem Record.cuts_digits (r : Record) (hover : LineOver rest) :
    Kind.sankey.Cuts (r.digits.toList ++ rest) [.unplaced .sankeyValue r.digits.toList] rest :=
  .take (Kind.sankey_next?_value r.numeral hover) rfl (.done rest)

theorem Record.cuts_plainLine (hs : IsName r.source) (ht : IsName r.target)
    (hover : LineOver rest) (hr : Closes rest later)
    (h : areRead (r.source.toList :: r.target.toList :: later) = true) :
    Kind.sankey.Cuts (r.plainLine.toList ++ rest) r.plainRun rest := by
  simp only [areRead, Bool.and_eq_true, Bool.not_eq_true'] at h
  obtain ⟨hsource, htarget, -⟩ := h
  rw [toList_plainLine]
  exact (cuts_name hs r.source_ne ((r.closes_digits hr).name _) hsource).trans
    ((cuts_name ht r.target_ne (r.closes_digits hr) htarget).trans (r.cuts_digits hover))

end Cuts

theorem reader_nameToken {s : String} (h : IsName s) : reader (nameToken s) = .ok (.text s) := by
  obtain ⟨htrim, -, hquote⟩ := h
  have hinner : Text.between? ['"'] ['"'] s.toList = none := by
    have hafter : after? ['"'] s.toList = none := by
      cases hs : s.toList with
      | nil => rfl
      | cons c cs =>
        rw [hs] at hquote
        simpa [after?, eq_comm] using hquote
    rw [Text.between?, hafter]
    rfl
  have hread : reader (nameToken s) = .ok (.ofChars (fieldText s.toList)) := by
    simp [reader, nameToken, Token.unplaced]
  rw [hread, fieldText, hinner, htrim, Value.ofChars, String.ofList_toList]

theorem Record.statement_plainRun {r : Record} (hs : IsName r.source) (ht : IsName r.target) :
    Kind.sankey.grammar.statement r.plainRun = .accepted (.entry r.link) [] :=
  r.statement_of_nodes rfl rfl (reader_nameToken hs) (reader_nameToken ht)

theorem cutsLines_of_areRead {ending : List Char} (he : ending = [] ∨ ending = ['\n'])
    {records : List Record} (hp : ∀ r ∈ records, IsName r.source ∧ IsName r.target)
    (h : areRead (names records) = true) :
    Kind.sankey.CutsLines (records.flatMap (fun r ↦ '\n' :: r.plainLine.toList) ++ ending)
      (records.map fun r ↦ .entry r.link) := by
  induction records with
  | nil => exact Kind.cutsLines_ending he
  | cons r records ih =>
    obtain ⟨⟨hs, ht⟩, hp⟩ := List.forall_mem_cons.1 hp
    have hlater : areRead (names records) = true := by
      simp only [names, List.flatMap_cons, List.cons_append, areRead, Bool.and_eq_true] at h
      exact h.2.2
    have hover := Kind.lineOver_lines (fun r : Record ↦ r.plainLine.toList) records he
    rw [List.flatMap_cons, List.append_assoc]
    exact (ih hp hlater).cons (by simp [Record.plainRun])
      (by simp [OneLine, Record.plainRun, nameToken, Record.comma, Token.unplaced, Token.isNewline])
      (Record.cuts_plainLine hs ht hover (closes_lines he records) h)
      (Record.statement_plainRun hs ht)

def ofRecords : Token.Kind → Bool
  | .newline | .sankeyNode | .sankeyValue | .symbol .comma => true
  | _ => false

section Accepted

variable {ts rest : List Token}

theorem ofRecords_of_dropWhile (h : ∀ t ∈ ts.dropWhile Token.isNewline, ofRecords t.kind = true) :
    ∀ t ∈ ts, ofRecords t.kind = true := by
  intro t ht
  rw [← List.takeWhile_append_dropWhile (p := Token.isNewline) (l := ts)] at ht
  rcases List.mem_append.1 ht with ht | ht
  · have hn : t.isNewline = true := List.mem_takeWhile_imp ht
    rw [of_decide_eq_true hn]
    rfl
  · exact h t ht

theorem ofRecords_of_link {l : Link} (h : link ts = .accepted l []) :
    ∀ t ∈ ts, ofRecords t.kind = true := by
  obtain ⟨source, _, hs, h⟩ := bind_eq_accepted_iff.1 h
  obtain ⟨comma, _, hc, h⟩ := bind_eq_accepted_iff.1 h
  obtain ⟨target, _, ht, h⟩ := bind_eq_accepted_iff.1 h
  obtain ⟨comma', _, hc', h⟩ := bind_eq_accepted_iff.1 h
  obtain ⟨value, _, hv, h⟩ := bind_eq_accepted_iff.1 h
  obtain ⟨u, _, hend, h⟩ := bind_eq_accepted_iff.1 h
  obtain ⟨-, rfl⟩ := Outcome.accepted.inj h
  obtain ⟨s, -, rfl, hsource, -⟩ := text_eq_accepted hs
  obtain ⟨rfl, hcomma⟩ := token_eq_accepted hc
  obtain ⟨t, -, rfl, htarget, -⟩ := text_eq_accepted ht
  obtain ⟨rfl, hcomma'⟩ := token_eq_accepted hc'
  obtain ⟨v, rfl, hvalue, -⟩ := number_eq_accepted hv
  have hlast := ofRecords_of_dropWhile (endOfLine_eq_accepted hend ▸ (nofun : ∀ t ∈ [], _))
  simp only [List.forall_mem_cons, hsource, hcomma, htarget, hcomma', hvalue]
  exact ⟨rfl, rfl, rfl, rfl, rfl, hlast⟩

theorem ofRecords_of_statement {item : Statement Link} (hitem : item.note? = none)
    (h : Statement.production reader entry ts = .accepted item []) :
    ∀ t ∈ ts, ofRecords t.kind = true := by
  obtain ⟨a, rfl, -⟩ | ⟨l, -, hl⟩ := Statement.production_eq_accepted h
  · cases hitem
  · obtain ⟨k, _, hk, hl⟩ := bind_eq_accepted_iff.1 hl
    obtain ⟨-, rfl⟩ := Outcome.accepted.inj hk
    split at hl
    · exact ofRecords_of_link hl
    · cases hl

theorem ofRecords_of_lines {runs : List (List Token)} {items : List (Statement Link)}
    (h : List.Forall₂ (fun run item ↦ Statement.production reader entry run = .accepted item [])
      runs items) (hnotes : items.filterMap Statement.note? = []) :
    ∀ t ∈ runs.flatten, ofRecords t.kind = true := by
  induction h with
  | nil => nofun
  | @cons run item runs items hrun _ ih =>
    obtain ⟨hitem, hitems⟩ := List.forall_mem_cons.1 (List.filterMap_eq_nil_iff.1 hnotes)
    rw [List.flatten_cons, List.forall_mem_append]
    exact ⟨ofRecords_of_statement hitem hrun, ih (List.filterMap_eq_nil_iff.2 hitems)⟩

theorem eq_nil_of_ofList {as : List Annotation} (h : Annotations.ofList as = {}) : as = [] := by
  rcases List.eq_nil_or_concat as with rfl | ⟨front, a, rfl⟩
  · rfl
  · rw [Annotations.ofList, List.concat_eq_append, List.foldl_append] at h
    cases a with
    | title s => cases congrArg Annotations.title h
    | accTitle s => cases congrArg Annotations.accTitle h
    | accDescr s => cases congrArg Annotations.accDescr h

theorem ofRecords_of_parse {text : String} {d : Sankey}
    (h : Kind.sankey.parse text = .ok (.sankey d)) (ha : d.annotations = {}) :
    ∀ t ∈ ((Kind.sankey.grammar.lexicon.tokenize text.toList).tokens.dropWhile
      Token.isNewline).tail, ofRecords t.kind = true := by
  obtain ⟨header, rest, items, tree, hopen, hlines, hassemble, hcomplete⟩ :=
    Kind.exists_lines_of_parse h
  obtain ⟨w, mid, hw, hheader⟩ := bind_eq_accepted_iff.1 (Grammar.opening_apply .. ▸ hopen)
  obtain ⟨-, t, htokens, -⟩ := keywordOf_eq_accepted hw
  rw [htokens, List.tail_cons]
  refine ofRecords_of_dropWhile ?_
  rw [← endOfLine_eq_accepted hheader]
  have hnotes : items.filterMap Statement.note? = [] := by
    obtain ⟨rfl, -⟩ := Prod.mk.inj hassemble
    obtain rfl := Diagram.sankey.inj hcomplete
    exact eq_nil_of_ofList ha
  intro t ht
  cases hbreak : t.isNewline with
  | true =>
    rw [of_decide_eq_true hbreak]
    rfl
  | false =>
    refine ofRecords_of_lines hlines hnotes t ?_
    rw [flatten_lineRuns]
    exact List.mem_filter.2 ⟨ht, by simp [hbreak]⟩

end Accepted

def FindsRecords (c : Cursor) : Prop :=
  ∀ t ∈ (Kind.sankey.grammar.lexicon.scan c).tokens, ofRecords t.kind = true

section Scan

variable {c : Cursor} {cs rest : List Char} {ts : List Token} {later : List (List Char)}

theorem FindsRecords.past (h : FindsRecords c) (hc : c.Begun) (ha : c.after = cs)
    (hcut : Kind.sankey.Cuts cs ts rest) : ∃ d, FindsRecords d ∧ d.Begun ∧ d.after = rest := by
  obtain ⟨us, d, hwalk, -, hrest, hd⟩ := hcut.exists_walk ha hc
  refine ⟨d, fun t ht ↦ h t ?_, hd, hrest⟩
  rw [hwalk.scan_eq]
  exact List.mem_append_right us ht

theorem FindsRecords.not_misread {s : String} (h : FindsRecords c) (hc : c.Begun)
    (hs : IsName s) (hn : s ≠ "") (hr : Closes rest later)
    (ha : c.after = s.toList ++ ',' :: rest) : isMisread later s.toList = false := by
  by_contra hm
  obtain ⟨m, hmatch, shape, hshape, hkind⟩ :=
    exists_match_of_misread hs hn hr (Bool.not_eq_false _ ▸ hm)
  have hall : ∀ shape ∈ otherShapes,
      shape.kind.isHidden = false ∧ ofRecords shape.kind = false := by decide
  obtain ⟨hhidden, hother⟩ := hall shape hshape
  rw [hkind] at hhidden hother
  rw [Kind.next?, ← ha, ← Kind.match?_eq_of_begun hc] at hmatch
  have hfound := h (Lexicon.token m.kind c m.text) (by
    rw [Lexicon.scan_of_match hmatch]
    simp [hhidden])
  rw [show (Lexicon.token m.kind c m.text).kind = m.kind from rfl, hother] at hfound
  cases hfound

theorem FindsRecords.areRead {ending : List Char} (he : ending = [] ∨ ending = ['\n'])
    {records : List Record} (hp : ∀ r ∈ records, IsName r.source ∧ IsName r.target)
    (h : FindsRecords c) (hc : c.Begun)
    (ha : c.after = records.flatMap (fun r ↦ '\n' :: r.plainLine.toList) ++ ending) :
    areRead (names records) = true := by
  induction records generalizing c with
  | nil => rfl
  | cons r records ih =>
    obtain ⟨⟨hs, ht⟩, hp⟩ := List.forall_mem_cons.1 hp
    have hclose := r.closes_digits (closes_lines he records)
    have hover := Kind.lineOver_lines (fun r : Record ↦ r.plainLine.toList) records he
    rw [List.flatMap_cons, List.append_assoc, List.cons_append, Record.toList_plainLine] at ha
    obtain ⟨c₁, h₁, hc₁, ha₁⟩ := h.past hc ha (.take (Kind.next?_feed _) rfl (.done _))
    have hsource := h₁.not_misread hc₁ hs r.source_ne (hclose.name _) ha₁
    obtain ⟨c₂, h₂, hc₂, ha₂⟩ :=
      h₁.past hc₁ ha₁ (cuts_name hs r.source_ne (hclose.name _) hsource)
    have htarget := h₂.not_misread hc₂ ht r.target_ne hclose ha₂
    obtain ⟨c₃, h₃, hc₃, ha₃⟩ := h₂.past hc₂ ha₂ (cuts_name ht r.target_ne hclose htarget)
    obtain ⟨c₄, h₄, hc₄, ha₄⟩ := h₃.past hc₃ ha₃ (r.cuts_digits hover)
    have hlater := ih hp h₄ hc₄ ha₄
    simp only [names, List.flatMap_cons, List.cons_append, List.nil_append, Sankey.areRead,
      Bool.and_eq_true, Bool.not_eq_true']
    exact ⟨hsource, htarget, hlater⟩

end Scan

/-- Without annotations, the scan of an accepted text finds nothing but records after the header. -/
theorem exists_findsRecords {text : String} {body : List Char} {d : Sankey}
    (htext : text.toList = "sankey-beta".toList ++ body) (hover : LineOver body)
    (h : Kind.sankey.parse text = .ok (.sankey d)) (ha : d.annotations = {}) :
    ∃ c, FindsRecords c ∧ c.Begun ∧ c.after = body := by
  have hmatch : Kind.sankey.grammar.lexicon.match? (.start ('s' :: ("ankey-beta".toList ++ body))) =
      some ⟨.keyword .sankeyBeta, "sankey-beta".toList, body⟩ :=
    (Kind.match?_start (by decide) _).trans (Kind.sankey_next?_header hover)
  have htokens : (Kind.sankey.grammar.lexicon.tokenize text.toList).tokens =
      (Kind.sankey.grammar.lexicon.scan
        (.start ('s' :: ("ankey-beta".toList ++ body)))).tokens := by
    rw [htext]
    rfl
  refine ⟨_, fun t ht ↦ ofRecords_of_parse h ha t ?_, Kind.begun_start rfl hmatch, rfl⟩
  rw [htokens, Lexicon.scan_of_match hmatch]
  exact ht

/-- Records of plain names are read back exactly where no name is misread. -/
theorem parse_plainLines_iff {records : List Record} (hn : records ≠ [])
    (hp : ∀ r ∈ records, IsName r.source ∧ IsName r.target) {ending : String}
    (he : ending ∈ ["", "\n"]) :
    Kind.sankey.parse (onLines "sankey-beta" (records.map Record.plainLine) ++ ending) =
        .ok (.sankey
          { links := records.map Record.link
            nodes := (records.flatMap fun r ↦ [r.source, r.target]).eraseDups }) ↔
      areRead (names records) = true := by
  have hending := toList_of_mem_endings he
  have hover := Kind.lineOver_lines (fun r : Record ↦ r.plainLine.toList) records hending
  have htext := toList_onLines "sankey-beta" ending Record.plainLine records
  constructor
  · intro h
    obtain ⟨c, hfinds, hc, ha⟩ := exists_findsRecords htext hover h rfl
    exact hfinds.areRead hending hp hc ha
  · intro h
    rw [← Record.complete_links]
    exact Kind.parse_of_cut_lines htext Kind.sankey_opensLine hover
      (cutsLines_of_areRead hending hp h) (Record.assemble_entries records)
      (Record.lacks_of_ne_nil hn)

def one : Binary64 :=
  ⟨false, 4503599627370496, -52, by decide⟩

theorem numeral_one : Numeral "1".toList :=
  .whole (by decide) (List.all_eq_true.1 rfl)

theorem ofText?_one : Binary64.ofText? "1".toList = some one := by decide +kernel

def lookalikes : List Record :=
  [⟨"sankeys", "title", "1", one, by decide, by decide, numeral_one, ofText?_one⟩,
    ⟨"accDescr \x7ba", "1.5", "1", one, by decide, by decide, numeral_one, ofText?_one⟩]

theorem parse_plainLines_iff_lookalikes :
    (∀ r ∈ lookalikes, IsName r.source ∧ IsName r.target) ∧ areRead (names lookalikes) = true ∧
    Kind.sankey.parse "sankey-beta\nsankeys,title,1\naccDescr \x7ba,1.5,1\n" =
      .ok (.sankey
        { links := lookalikes.map Record.link
          nodes := ["sankeys", "title", "accDescr \x7ba", "1.5"] }) := by
  have hp : ∀ r ∈ lookalikes, IsName r.source ∧ IsName r.target := by decide +kernel
  have hread : areRead (names lookalikes) = true := by decide +kernel
  have hn : lookalikes ≠ [] := by simp [lookalikes]
  have he : "\n" ∈ ["", "\n"] := by decide
  refine ⟨hp, hread, ?_⟩
  exact (parse_plainLines_iff hn hp he).2 hread

def reservedName : List Record :=
  [⟨"sankey", "b", "1", one, by decide, by decide, numeral_one, ofText?_one⟩]

theorem parse_plainLines_overlooks :
    (∀ r ∈ reservedName, IsName r.source ∧ IsName r.target) ∧
    ¬∃ d : Sankey,
      Kind.sankey.parse (onLines "sankey-beta" (reservedName.map Record.plainLine)) =
        .ok (.sankey d) ∧ d.links = reservedName.map Record.link := by
  have hnone : (Kind.sankey.parse
      (onLines "sankey-beta" (reservedName.map Record.plainLine))).toOption = none := by
    decide +kernel
  refine ⟨by decide, ?_⟩
  rintro ⟨d, hd, -⟩
  rw [hd] at hnone
  cases hnone

end Sankey

end DiagramText
