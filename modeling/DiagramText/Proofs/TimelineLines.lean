import DiagramText.Proofs.TimelineSections
import DiagramText.Proofs.Written

namespace DiagramText

open Text (after? dropAll isBlank isBreak trim)
open Pattern (IsFree Stopped commentMark isSpace)

namespace Text

variable {cs : List Char}

theorem prefix_append_iff {word rest : List Char} (h : ∀ c ∈ rest.head?, c ∉ word) :
    word <+: cs ++ rest ↔ word <+: cs := by
  refine ⟨fun hw ↦ ?_, fun hw ↦ hw.trans (List.prefix_append cs rest)⟩
  rcases List.prefix_or_prefix_of_prefix hw (List.prefix_append cs rest) with hp | ⟨tail, rfl⟩
  · exact hp
  · rw [List.prefix_append_right_inj] at hw
    cases tail with
    | nil => rw [List.append_nil]
    | cons c tail =>
      obtain ⟨more, rfl⟩ := hw
      exact absurd (List.mem_append_right _ List.mem_cons_self) (h c rfl)

theorem after?_eq_none_of_not_prefix {word : List Char} (h : ¬word <+: cs) :
    after? word cs = none := by
  rw [Option.eq_none_iff_forall_ne_some]
  intro rest hr
  exact h ⟨rest, (after?_eq_some_iff.1 hr).symm⟩

end Text

theorem Pattern.IsFree.concat_space {stops cs : List Char} (h : IsFree stops cs)
    (hs : ' ' ∉ stops) : IsFree stops (cs ++ [' ']) := by
  refine ⟨fun c hc ↦ ?_, fun hm ↦ ?_⟩
  · rcases List.mem_append.1 hc with hc | hc
    · exact h.1 c hc
    · rw [List.mem_singleton.1 hc]
      exact ⟨rfl, hs⟩
  · rcases List.infix_concat_iff.1 hm with hm | hm
    · rcases List.suffix_concat_iff.1 hm with hm | ⟨t, ht, -⟩
      · cases hm
      · have hlast := congrArg List.getLast? ht
        simp [commentMark] at hlast
    · exact h.2 hm

namespace Timeline

/-- A trimmed text on one line without a stop and without a comment mark. -/
def IsLabel (stops : List Char) (s : String) : Prop :=
  s ≠ "" ∧ trim s.toList = s.toList ∧ IsFree stops s.toList

instance (stops : List Char) (s : String) : Decidable (IsLabel stops s) :=
  instDecidableAnd

/-- The words that a period's title does not begin with. -/
def reserved : List String :=
  ["timeline", "title", "accTitle", "accDescr", "section"]

structure Period.Writable (p : Period) : Prop where
  title : IsLabel [':'] p.title
  unreserved : ∀ w ∈ reserved, ¬w.toList <+: p.title.toList
  events : ∀ e ∈ p.events, IsLabel [':'] e

/-- Well-formed sections whose titles and events can be written. -/
structure Writable (sections : List Section) : Prop where
  wellFormed : WellFormed sections
  titles : ∀ s ∈ sections, ∀ t ∈ s.title, IsLabel [] t
  periods : ∀ s ∈ sections, ∀ p ∈ s.periods, p.Writable

def Period.line (p : Period) : String :=
  p.title ++ String.join (p.events.map (" : " ++ ·))

def Section.lines (s : Section) : List String :=
  (s.title.map ("section " ++ ·)).toList ++ s.periods.map Period.line

/-- The blank before the colon of an event, if there is one more event. -/
def pad : List String → List Char
  | [] => []
  | _ :: _ => [' ']

theorem isFree_pad {stops cs : List Char} (h : IsFree stops cs) (hs : ' ' ∉ stops)
    (rest : List String) : IsFree stops (cs ++ pad rest) := by
  cases rest with
  | nil => rwa [pad, List.append_nil]
  | cons e rest => exact h.concat_space hs

def titleToken (title : String) : Token :=
  .unplaced .sectionTitle ("section " ++ title).toList

def eventToken (e : String) (rest : List String) : Token :=
  .unplaced .periodEvent (':' :: ' ' :: (e.toList ++ pad rest))

def eventsText : List String → List Char
  | [] => []
  | e :: rest => ':' :: ' ' :: (e.toList ++ pad rest) ++ eventsText rest

def eventsRun : List String → List Token
  | [] => []
  | e :: rest => eventToken e rest :: eventsRun rest

def Period.token (p : Period) : Token :=
  .unplaced .periodTitle (p.title.toList ++ pad p.events)

def Period.run (p : Period) : List Token :=
  p.token :: eventsRun p.events

end Timeline

namespace Kind

open Timeline (IsLabel reserved)

variable {rest : List Char}

theorem exists_head_of_label {stops : List Char} {s : String} (h : IsLabel stops s) :
    ∃ c cs, s.toList = c :: cs ∧ isSpace c = false ∧ isBreak c = false ∧ c ∉ stops := by
  obtain ⟨hn, htrim, hchars, -⟩ := h
  obtain ⟨c, cs, hs⟩ := List.exists_cons_of_ne_nil (show s.toList ≠ [] by simpa using hn)
  have hblank : isBlank c = false := Text.head_of_trim htrim c (by rw [hs]; rfl)
  refine ⟨c, cs, hs, ?_, hchars c (hs ▸ List.mem_cons_self)⟩
  by_contra hc
  rw [Pattern.isBlank_of_isSpace (Bool.not_eq_false _ ▸ hc)] at hblank
  cases hblank

theorem timeline_next?_section {title : String} (h : IsLabel [] title) (hr : Stopped [] rest) :
    timeline.next? ("section ".toList ++ title.toList ++ rest) =
      some ⟨.sectionTitle, "section ".toList ++ title.toList, rest⟩ := by
  obtain ⟨c, cs, hs, hc, -⟩ := exists_head_of_label h
  have hspace : Pattern.many1 isSpace ([' '] ++ (title.toList ++ rest)) =
      some ([' '], title.toList ++ rest) := by
    refine Pattern.many1_run (List.forall_mem_singleton.2 rfl) (List.cons_ne_nil _ _) ?_
    rw [hs]
    rintro d ⟨⟩
    exact hc
  have hfree := Pattern.freeText_nonempty_run h.2.2 (by simp [hs]) hr
  have hpattern : Pattern.sectionTitle ("section ".toList ++ title.toList ++ rest) =
      some ("section ".toList ++ title.toList, rest) :=
    Pattern.seq_eq_some_iff.2 ⟨"section".toList, _, _, rfl,
      Pattern.seq_eq_some_iff.2 ⟨[' '], _, _, hspace, hfree, rfl⟩, rfl⟩
  have hfront : Shape.first? ([.keyword .timeline] ++ Shape.annotations)
      ("section ".toList ++ title.toList ++ rest) = none := rfl
  have hsolid : timeline.next? ("section ".toList ++ title.toList ++ rest) =
      Shape.first? timeline.shapes ("section ".toList ++ title.toList ++ rest) :=
    next?_of_solid rfl rfl (by decide) _
  rw [hsolid, shapes, Shape.first?_append_of_none hfront]
  exact Shape.first?_cons_of_some (Shape.match?_eq_some_iff.2 ⟨rfl, hpattern, List.cons_ne_nil _ _⟩)

theorem timeline_next?_event {cs : List Char} (h : IsFree [':'] cs)
    (hh : ∀ c ∈ cs.head?, isSpace c = false) (hn : cs ≠ []) (hr : Stopped [':'] rest) :
    timeline.next? (':' :: ' ' :: cs ++ rest) = some ⟨.periodEvent, ':' :: ' ' :: cs, rest⟩ := by
  have hspace : Pattern.many isSpace ([' '] ++ (cs ++ rest)) = some ([' '], cs ++ rest) := by
    refine Pattern.many_run (List.forall_mem_singleton.2 rfl) ?_
    rwa [List.head?_append_of_ne_nil _ hn]
  have hfree := Pattern.freeText_nonempty_run h hn hr
  have hpattern : Pattern.periodEvent (':' :: ' ' :: cs ++ rest) =
      some (':' :: ' ' :: cs, rest) :=
    Pattern.seq_eq_some_iff.2 ⟨[':'], _, _, rfl,
      Pattern.seq_eq_some_iff.2 ⟨[' '], _, _, hspace, hfree, rfl⟩, rfl⟩
  have hfront : Shape.first? ([.keyword .timeline] ++ Shape.annotations ++
      [⟨.sectionTitle, Pattern.sectionTitle⟩, .keyword .section]) (':' :: ' ' :: cs ++ rest) =
      none := rfl
  have hsolid : timeline.next? (':' :: ' ' :: cs ++ rest) =
      Shape.first? timeline.shapes (':' :: ' ' :: cs ++ rest) :=
    next?_of_solid rfl rfl (by decide) _
  have hshapes : timeline.shapes = ([.keyword .timeline] ++ Shape.annotations ++
      [⟨.sectionTitle, Pattern.sectionTitle⟩, .keyword .section]) ++
      [⟨.periodEvent, Pattern.periodEvent⟩, ⟨.periodTitle, Pattern.periodTitle⟩] := rfl
  rw [hsolid, hshapes, Shape.first?_append_of_none hfront]
  exact Shape.first?_cons_of_some (Shape.match?_eq_some_iff.2 ⟨rfl, hpattern, List.cons_ne_nil _ _⟩)

theorem timeline_first?_of_period {cs : List Char} (hw : ∀ w ∈ reserved, ¬w.toList <+: cs)
    (hc : cs.head? ≠ some ':') :
    Shape.first? timeline.shapes cs =
      Shape.first? [⟨.periodTitle, Pattern.periodTitle⟩] cs := by
  have hliteral (w : String) (hm : w ∈ reserved) : Pattern.literal w.toList cs = none := by
    rw [Pattern.literal, Text.after?_eq_none_of_not_prefix (hw w hm)]
    rfl
  have hcolon : Pattern.literal [':'] cs = none := by
    cases cs with
    | nil => rfl
    | cons c cs =>
      have hne : ':' ≠ c := fun he ↦ hc (he ▸ rfl)
      simp [Pattern.literal, after?, hne]
  have htimeline : Pattern.literal Keyword.timeline.text.toList cs = none :=
    hliteral "timeline" (by decide)
  have hsection : Pattern.literal Keyword.section.text.toList cs = none :=
    hliteral "section" (by decide)
  have hdescr : Pattern.literal "accDescr".toList cs = none := hliteral "accDescr" (by decide)
  have hfront : Shape.first? ([.keyword .timeline] ++ Shape.annotations ++
      [⟨.sectionTitle, Pattern.sectionTitle⟩, .keyword .section,
        ⟨.periodEvent, Pattern.periodEvent⟩]) cs = none := by
    rw [Shape.first?, List.findSome?_eq_none_iff]
    simp only [Shape.annotations, List.forall_mem_append, List.forall_mem_cons]
    refine ⟨⟨⟨Shape.match?_of_none ?_, List.forall_mem_nil _⟩, Shape.match?_of_none ?_,
      Shape.match?_of_none ?_, Shape.match?_of_none ?_, List.forall_mem_nil _⟩,
      Shape.match?_of_none ?_, Shape.match?_of_none ?_, Shape.match?_of_none ?_,
      List.forall_mem_nil _⟩
    · simp only [Shape.keyword, Pattern.keyword, Pattern.whenRest, htimeline, Option.filter_none]
    · simp only [Pattern.accDescr, Pattern.labelled, Pattern.alt, Pattern.seq, hdescr,
        Option.bind_none]
    · simp only [Pattern.accTitle, Pattern.labelled, Pattern.seq, hliteral "accTitle" (by decide),
        Option.bind_none]
    · simp only [Pattern.title, Pattern.seq, Pattern.whenRest, hliteral "title" (by decide),
        Option.filter_none, Option.bind_none]
    · simp only [Pattern.sectionTitle, Pattern.seq, hliteral "section" (by decide),
        Option.bind_none]
    · simp only [Shape.keyword, Pattern.keyword, Pattern.whenRest, hsection, Option.filter_none]
    · simp only [Pattern.periodEvent, Pattern.seq, hcolon, Option.bind_none]
  have hshapes : timeline.shapes = ([.keyword .timeline] ++ Shape.annotations ++
      [⟨.sectionTitle, Pattern.sectionTitle⟩, .keyword .section,
        ⟨.periodEvent, Pattern.periodEvent⟩]) ++ [⟨.periodTitle, Pattern.periodTitle⟩] := rfl
  rw [hshapes, Shape.first?_append_of_none hfront]

theorem timeline_next?_period {p : Timeline.Period} (h : p.Writable) (hr : Stopped [':'] rest) :
    timeline.next? (p.title.toList ++ Timeline.pad p.events ++ rest) =
      some ⟨.periodTitle, p.title.toList ++ Timeline.pad p.events, rest⟩ := by
  obtain ⟨c, cs, hs, hspace, hbreak, hstop⟩ := exists_head_of_label h.title
  have hfree := Timeline.isFree_pad h.title.2.2 (by decide) p.events
  have hwords : ∀ w ∈ reserved, ¬w.toList <+: p.title.toList ++ Timeline.pad p.events ++ rest := by
    have houtside : ∀ w ∈ reserved, ∀ d ∈ [' ', ':', '\n', '\r'], d ∉ w.toList := by
      simp [reserved]
    -- A reserved word cannot reach over the end of the title: none has a blank, a colon or a break.
    intro w hw
    rw [List.append_assoc, Text.prefix_append_iff]
    · exact h.unreserved w hw
    · intro d hd
      refine houtside w hw d ?_
      cases he : p.events with
      | cons e events =>
        rw [he] at hd
        obtain rfl : ' ' = d := Option.some.inj hd
        exact List.mem_cons_self
      | nil =>
        rw [he] at hd
        rcases hr d hd with hb | hc
        · have hb : d = '\n' ∨ d = '\r' := by simpa [isBreak] using hb
          rcases hb with rfl | rfl <;> decide
        · rw [List.mem_singleton.1 hc]
          decide
  have hpattern : Pattern.periodTitle (p.title.toList ++ Timeline.pad p.events ++ rest) =
      some (p.title.toList ++ Timeline.pad p.events, rest) :=
    Pattern.freeText_nonempty_run hfree (by simp [hs]) hr
  have hmark := hfree.after?_commentMark (by simp [hs]) hr
  have hcolon : (p.title.toList ++ Timeline.pad p.events ++ rest).head? ≠ some ':' := by
    rw [hs]
    rintro ⟨⟩
    exact hstop List.mem_cons_self
  have hsolid : timeline.next? (p.title.toList ++ Timeline.pad p.events ++ rest) =
      Shape.first? timeline.shapes (p.title.toList ++ Timeline.pad p.events ++ rest) := by
    rw [hs] at hmark ⊢
    exact next?_of_unmarked hspace hbreak hmark
  rw [hsolid, timeline_first?_of_period hwords hcolon]
  exact Shape.first?_cons_of_some
    (Shape.match?_eq_some_iff.2 ⟨rfl, hpattern, by simp [hs]⟩)

end Kind

namespace Timeline

theorem stopped_of_lineOver {stops rest : List Char} (h : Kind.LineOver rest) :
    Stopped stops rest := by
  rcases h with rfl | ⟨cs, rfl⟩
  · exact nofun
  · rintro c ⟨⟩
    exact .inl rfl

theorem toList_join_events (events : List String) :
    (String.join (events.map (" : " ++ ·))).toList = pad events ++ eventsText events := by
  induction events with
  | nil => rfl
  | cons e rest ih =>
    rw [List.map_cons, String.join_cons, String.toList_append, ih]
    simp [pad, eventsText]

theorem stopped_events {rest : List Char} (events : List String) (hr : Kind.LineOver rest) :
    Stopped [':'] (eventsText events ++ rest) := by
  cases events with
  | nil => exact stopped_of_lineOver hr
  | cons e events =>
    rintro c ⟨⟩
    exact .inr List.mem_cons_self

theorem writes_section {title : String} (h : IsLabel [] title) :
    Kind.timeline.Writes Kind.LineOver ("section " ++ title).toList [titleToken title] := by
  refine Kind.writes_of_next? rfl fun rest hr ↦ ?_
  rw [String.toList_append]
  exact Kind.timeline_next?_section h (stopped_of_lineOver hr)

theorem writes_event {e : String} (h : IsLabel [':'] e) (rest : List String) :
    Kind.timeline.Writes (Stopped [':']) (':' :: ' ' :: (e.toList ++ pad rest))
      [eventToken e rest] := by
  obtain ⟨c, cs, hs, hspace, -⟩ := Kind.exists_head_of_label h
  refine Kind.writes_of_next? rfl fun tail ht ↦ ?_
  refine Kind.timeline_next?_event (isFree_pad h.2.2 (by decide) rest) ?_ (by simp [hs]) ht
  rw [hs]
  rintro d ⟨⟩
  exact hspace

theorem writes_events {events : List String} (h : ∀ e ∈ events, IsLabel [':'] e) :
    Kind.timeline.Writes Kind.LineOver (eventsText events) (eventsRun events) := by
  induction events with
  | nil => exact Kind.writes_nil _
  | cons e rest ih =>
    obtain ⟨he, hrest⟩ := List.forall_mem_cons.1 h
    exact (writes_event he rest).append (ih hrest) fun _ ↦ stopped_events rest

theorem Period.writes {p : Period} (h : p.Writable) :
    Kind.timeline.Writes Kind.LineOver p.line.toList p.run := by
  have htitle : Kind.timeline.Writes (Stopped [':']) (p.title.toList ++ pad p.events) [p.token] :=
    Kind.writes_of_next? rfl fun rest hr ↦ Kind.timeline_next?_period h hr
  have hline : p.line.toList = p.title.toList ++ pad p.events ++ eventsText p.events := by
    rw [line, String.toList_append, toList_join_events, List.append_assoc]
  rw [hline]
  exact htitle.append (writes_events h.events) fun _ ↦ stopped_events p.events

open Grammar.Timeline (Entry event periodLine reader sectionLine)

theorem trim_pad {cs : List Char} (h : trim cs = cs) (rest : List String) :
    trim (cs ++ pad rest) = cs := by
  cases rest with
  | nil => rwa [pad, List.append_nil]
  | cons e rest => rwa [pad, Text.trim_append_blank (by decide)]

theorem reader_titleToken {title : String} (h : IsLabel [] title) :
    reader (titleToken title) = .ok (.text title) := by
  have hcut : after? "section".toList ("section ".toList ++ title.toList) =
      some (' ' :: title.toList) := rfl
  have hstop : after? "section".toList (' ' :: title.toList) = none := rfl
  -- The blank after the keyword keeps a title that begins with it whole.
  have honce : dropAll "section".toList (' ' :: title.toList) = ' ' :: title.toList := by
    rw [dropAll, hstop]
  have hdrop : dropAll "section".toList ("section " ++ title).toList = ' ' :: title.toList := by
    rw [String.toList_append, dropAll, hcut]
    simp only [honce, ite_self]
  have hread : reader (titleToken title) =
      .ok (.ofChars (trim (dropAll "section".toList ("section " ++ title).toList))) := by
    simp [reader, titleToken, Token.unplaced]
  rw [hread, hdrop, Text.trim_cons_blank (by decide), h.2.1, Value.ofChars, String.ofList_toList]

theorem reader_eventToken {e : String} (h : IsLabel [':'] e) (rest : List String) :
    reader (eventToken e rest) = .ok (.text e) := by
  have hread : reader (eventToken e rest) = .ok (.ofChars (trim (' ' :: (e.toList ++ pad rest)))) :=
    by simp [reader, eventToken, Token.unplaced]
  rw [hread, Text.trim_cons_blank (by decide), trim_pad h.2.1, Value.ofChars, String.ofList_toList]

theorem Period.reader_token {p : Period} (h : p.Writable) :
    reader p.token = .ok (.text p.title) := by
  have hread : reader p.token = .ok (.ofChars (trim (p.title.toList ++ pad p.events))) := by
    simp [reader, Period.token, Token.unplaced]
  rw [hread, trim_pad h.title.2.1, Value.ofChars, String.ofList_toList]

theorem many_event {events : List String} (h : ∀ e ∈ events, IsLabel [':'] e) :
    Production.many event (eventsRun events) =
      .accepted (events.map fun e ↦ ⟨e, default⟩) [] := by
  induction events with
  | nil =>
    rw [Production.many]
    rfl
  | cons e rest ih =>
    obtain ⟨he, hrest⟩ := List.forall_mem_cons.1 h
    have hevent : event (eventToken e rest :: eventsRun rest) =
        .accepted ⟨e, default⟩ (eventsRun rest) :=
      Production.text_cons rfl (reader_eventToken he rest) _ _
    rw [eventsRun, Production.many]
    simp only [hevent, List.length_cons, Nat.lt_succ_self, if_true, ih hrest, List.map_cons]

theorem oneLine_eventsRun (events : List String) : OneLine (eventsRun events) := by
  induction events with
  | nil => exact nofun
  | cons e rest ih => exact List.forall_mem_cons.2 ⟨rfl, ih⟩

theorem readsLine_section {title : String} (h : IsLabel [] title) :
    Kind.timeline.ReadsLine ("section " ++ title).toList (.entry (.section title)) := by
  have hsection : sectionLine [titleToken title] = .accepted (.section title) [] := by
    have htitle : Production.text reader .sectionTitle "section" [titleToken title] =
        .accepted ⟨title, default⟩ [] :=
      Production.text_cons rfl (reader_titleToken h) _ []
    rw [sectionLine, Production.bind_apply, htitle]
    rfl
  have hentry : Grammar.Timeline.entry [titleToken title] = .accepted (.section title) [] :=
    hsection
  exact ⟨[titleToken title], nofun, List.forall_mem_singleton.2 rfl, writes_section h,
    Statement.production_of_entry rfl hentry⟩

theorem Period.readsLine {p : Period} (h : p.Writable) :
    Kind.timeline.ReadsLine p.line.toList (.entry (.period p)) := by
  have hperiod : periodLine p.run = .accepted (.period p) [] := by
    have htitle : Production.text reader .periodTitle "period" p.run =
        .accepted ⟨p.title, default⟩ (eventsRun p.events) :=
      Production.text_cons rfl (reader_token h) _ _
    have hvalues : (p.events.map fun e ↦ (⟨e, default⟩ : Spanned String)).map Spanned.value =
        p.events := by
      rw [List.map_map]
      exact List.map_id p.events
    refine Production.bind_eq_accepted_iff.2 ⟨_, _, htitle,
      Production.bind_eq_accepted_iff.2 ⟨_, _, many_event h.events, ?_⟩⟩
    rw [hvalues]
    rfl
  have hentry : Grammar.Timeline.entry p.run = .accepted (.period p) [] := hperiod
  exact ⟨p.run, nofun, List.forall_mem_cons.2 ⟨rfl, oneLine_eventsRun p.events⟩, p.writes h,
    Statement.production_of_entry rfl hentry⟩

end Timeline

theorem Kind.timeline_opensLine :
    timeline.OpensLine "timeline".toList (.unplaced (.keyword .timeline) "timeline".toList) where
  head := ⟨'t', _, rfl, by decide, by decide⟩
  cuts := by
    refine ⟨[.unplaced (.keyword .timeline) "timeline".toList],
      writes_of_next? rfl fun rest hr ↦ ?_, fun tail _ ↦ ⟨tail, rfl, rfl⟩⟩
    rcases hr with rfl | ⟨rest, rfl⟩ <;> rfl

namespace Timeline

open Grammar.Timeline (Entry)

/-- The line of an entry. That of a continuation begins with the blank before its first colon. -/
def entryLine : Entry → String
  | .section title => "section " ++ title
  | .period p => p.line
  | .continuation events => String.join (events.value.map (" : " ++ ·))

theorem Section.map_entries (s : Section) : s.entries.map entryLine = s.lines := by
  rw [entries, lines, List.map_append, List.map_map]
  cases s.title <;> rfl

theorem Writable.readsLine {sections : List Section} (h : Writable sections) :
    ∀ e ∈ sections.flatMap Section.entries,
      Kind.timeline.ReadsLine (entryLine e).toList (.entry e) := by
  intro e he
  obtain ⟨s, hs, he⟩ := List.mem_flatMap.1 he
  rcases List.mem_append.1 he with he | he
  · obtain ⟨title, ht, rfl⟩ := Option.map_eq_some_iff.1 (Option.mem_toList.1 he)
    exact readsLine_section (h.titles s hs title ht)
  · obtain ⟨p, hp, rfl⟩ := List.mem_map.1 he
    exact p.readsLine (h.periods s hs p hp)

/-- Sections written out, each with its title if it has one and then its periods, are read back. -/
theorem parse_sections {sections : List Section} (h : Writable sections) {ending : String}
    (he : ending ∈ ["", "\n"]) :
    Kind.timeline.parse (onLines "timeline" (sections.flatMap Section.lines) ++ ending) =
      .ok (.timeline { sections }) := by
  have hlines : sections.flatMap Section.lines =
      (sections.flatMap Section.entries).map entryLine := by
    rw [List.map_flatMap]
    exact congrArg (sections.flatMap ·) (funext fun s ↦ s.map_entries.symm)
  have hentries : Statement.entries ((sections.flatMap Section.entries).map .entry) =
      sections.flatMap Section.entries :=
    (Statement.entries_map id _).trans (List.map_id _)
  have hassemble (header : Token) : Grammar.Timeline.assemble header
      ((sections.flatMap Section.entries).map .entry) = (.timeline { sections }, []) := by
    rw [Grammar.Timeline.assemble, hentries, h.wellFormed.foldl_entries]
    exact congrArg (fun notes ↦ (Diagram.timeline { sections, annotations := notes }, []))
      (Statement.annotations_map id _)
  rw [hlines]
  exact Kind.parse_of_lines Kind.timeline_opensLine h.readsLine he
    (hassemble (.unplaced (.keyword .timeline) "timeline".toList)) rfl

def lookalikes : List Section :=
  [⟨none, [⟨"Section 1%", ["%", "a, title b"]⟩, ⟨"% sec\ttion", []⟩]⟩, ⟨some "section : : %", []⟩,
    ⟨some "timeline", [⟨"été 1", ["section", "accTitle \""]⟩]⟩]

theorem writable_lookalikes : Writable lookalikes where
  wellFormed := ⟨by decide, by decide⟩
  titles := by
    intro s hs t ht
    simp only [lookalikes, List.mem_cons, List.not_mem_nil, or_false] at hs
    rcases hs with rfl | rfl | rfl
    · cases ht
    · obtain rfl : "section : : %" = t := Option.some.inj ht
      decide
    · obtain rfl : "timeline" = t := Option.some.inj ht
      decide
  periods := by
    intro s hs p hp
    simp only [lookalikes, List.mem_cons, List.not_mem_nil, or_false] at hs
    rcases hs with rfl | rfl | rfl <;> simp only [List.mem_cons, List.not_mem_nil, or_false] at hp
    · rcases hp with rfl | rfl
      · exact ⟨by decide, by decide, by decide⟩
      · exact ⟨by decide, by decide, by decide⟩
    · obtain rfl := hp
      exact ⟨by decide, by decide, by decide⟩

theorem parse_sections_lookalikes :
    Kind.timeline.parse ("timeline\n" ++
      "Section 1% : % : a, title b\n" ++
      "% sec\ttion\n" ++
      "section section : : %\n" ++
      "section timeline\n" ++
      "été 1 : section : accTitle \"\n") = .ok (.timeline { sections := lookalikes }) :=
  @parse_sections lookalikes writable_lookalikes "\n" (by decide)

end Timeline

end DiagramText
