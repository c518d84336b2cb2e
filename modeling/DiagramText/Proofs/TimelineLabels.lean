import DiagramText.Diagram.Labels
import DiagramText.Proofs.AcceptedLines
import DiagramText.Proofs.TimelineSections
import Mathlib.Data.List.Induction

namespace DiagramText

open Grammar.Timeline (Entry addPeriod continuationLine entry event extend? periodLine reader
  sectionLine step updateLast?)
open Production (bind_eq_accepted_iff endOfLine_eq_accepted keyword_eq_accepted text_eq_accepted)

namespace Timeline

def holdsLabel (t : Token) : Bool :=
  match t.kind with
  | .sectionTitle | .periodTitle | .periodEvent => true
  | _ => false

def readings (ts : List Token) : List (Except Fault Value) :=
  (ts.filter holdsLabel).map reader

def asRead (labels : List String) : List (Except Fault Value) :=
  labels.map fun label ↦ .ok (.text label)

section Readings

variable {t : Token} {ts us : List Token}

theorem readings_append : readings (ts ++ us) = readings ts ++ readings us := by
  rw [readings, List.filter_append, List.map_append]
  rfl

theorem asRead_append (as bs : List String) : asRead (as ++ bs) = asRead as ++ asRead bs :=
  List.map_append

theorem readings_cons (ht : holdsLabel t = true) :
    readings (t :: ts) = reader t :: readings ts := by
  rw [readings, List.filter_cons_of_pos ht]
  rfl

theorem readings_cons_of_neg (ht : holdsLabel t = false) :
    readings (t :: ts) = readings ts := by
  rw [readings, List.filter_cons_of_neg (by simp [ht])]
  rfl

theorem holdsLabel_of_isNewline (ht : t.isNewline = true) : holdsLabel t = false := by
  rw [holdsLabel, of_decide_eq_true ht]

theorem holdsLabel_of_keyword {k : Keyword} (ht : t.kind = .keyword k) :
    holdsLabel t = false := by
  rw [holdsLabel, ht]

theorem readings_dropWhile_isNewline (ts : List Token) :
    readings (ts.dropWhile Token.isNewline) = readings ts := by
  induction ts with
  | nil => rfl
  | cons t ts ih =>
    cases ht : t.isNewline with
    | true =>
      rw [List.dropWhile_cons_of_pos ht, ih, readings_cons_of_neg (holdsLabel_of_isNewline ht)]
    | false => rw [List.dropWhile_cons_of_neg (by simp [ht])]

theorem readings_flatten_lineRuns (ts : List Token) :
    readings (lineRuns ts).flatten = readings ts := by
  have hkeep (t : Token) : (holdsLabel t && !t.isNewline) = holdsLabel t := by
    cases ht : t.isNewline with
    | true => rw [holdsLabel_of_isNewline ht]; rfl
    | false => rw [Bool.not_false, Bool.and_true]
  rw [flatten_lineRuns, readings, List.filter_filter]
  simp only [hkeep]
  rfl

theorem exists_reader_eq_text (ht : holdsLabel t = true) : ∃ s, reader t = .ok (.text s) := by
  unfold reader
  cases hk : t.kind with
  | sectionTitle | periodTitle | periodEvent => exact ⟨_, rfl⟩
  | _ =>
    rw [holdsLabel, hk] at ht
    cases ht

end Readings

section Productions

variable {kind : Token.Kind} {what : String} {ts rest : List Token} {s : Spanned String}

theorem readings_of_text (hk : kind = .sectionTitle ∨ kind = .periodTitle ∨ kind = .periodEvent)
    (h : Production.text reader kind what ts = .accepted s rest) :
    readings ts = asRead [s.value] ++ readings rest := by
  obtain ⟨t, v, rfl, rfl, hr, hs⟩ := text_eq_accepted h
  have ht : holdsLabel t = true := by
    rcases hk with hk | hk | hk <;> rw [holdsLabel, hk]
  obtain ⟨label, hl⟩ := exists_reader_eq_text ht
  obtain rfl := Except.ok.inj (hr.symm.trans hl)
  rw [readings_cons ht, hl, hs]
  rfl

theorem readings_of_endOfLine {u : Unit} (h : Production.endOfLine ts = .accepted u rest) :
    readings rest = readings ts := by
  rw [endOfLine_eq_accepted h, readings_dropWhile_isNewline]

theorem readings_of_events {events : List (Spanned String)}
    (h : Production.many event ts = .accepted events rest) :
    readings ts = asRead (events.map Spanned.value) ++ readings rest := by
  fun_induction Production.many event ts generalizing events rest with
  | case1 ts e mid ho hlt es rest' hm ih =>
    obtain ⟨rfl, rfl⟩ := Outcome.accepted.inj h
    rw [readings_of_text (.inr (.inr rfl)) ho, ih hm, ← List.append_assoc, ← asRead_append]
    rfl
  | case2 => cases h
  | case3 | case4 =>
    obtain ⟨rfl, rfl⟩ := Outcome.accepted.inj h
    rfl
  | case5 => cases h

theorem readings_of_line {make : String → Annotation} {a : Annotation}
    (hk : kind = .title ∨ kind = .accTitle ∨ kind = .accDescr)
    (h : Annotation.line reader kind what make ts = .accepted a rest) :
    readings ts = readings rest := by
  obtain ⟨s, mid, hs, h⟩ := bind_eq_accepted_iff.1 h
  obtain ⟨u, _, hend, h⟩ := bind_eq_accepted_iff.1 h
  obtain ⟨-, rfl⟩ := Outcome.accepted.inj h
  obtain ⟨t, v, rfl, rfl, -, -⟩ := text_eq_accepted hs
  have ht : holdsLabel t = false := by
    rcases hk with hk | hk | hk <;> rw [holdsLabel, hk]
  rw [readings_cons_of_neg ht, readings_of_endOfLine hend]

theorem readings_of_note {a : Annotation}
    (h : Annotation.production reader ts = .accepted a rest) : readings ts = readings rest := by
  obtain ⟨k, mid, hk, h⟩ := bind_eq_accepted_iff.1 h
  obtain ⟨-, rfl⟩ := Outcome.accepted.inj hk
  split at h
  · exact readings_of_line (.inl rfl) h
  · exact readings_of_line (.inr (.inl rfl)) h
  · exact readings_of_line (.inr (.inr rfl)) h
  · cases h

end Productions

def entryLabels : Entry → List String
  | .section title => [title]
  | .period p => p.labels
  | .continuation events => events.value

section Entries

variable {ts rest : List Token} {e : Entry}

theorem readings_of_sectionLine (h : sectionLine ts = .accepted e rest) :
    readings ts = asRead (entryLabels e) ++ readings rest := by
  obtain ⟨title, mid, ht, h⟩ := bind_eq_accepted_iff.1 h
  obtain ⟨u, _, hend, h⟩ := bind_eq_accepted_iff.1 h
  obtain ⟨rfl, rfl⟩ := Outcome.accepted.inj h
  rw [readings_of_text (.inl rfl) ht, readings_of_endOfLine hend]
  rfl

theorem readings_of_periodLine (h : periodLine ts = .accepted e rest) :
    readings ts = asRead (entryLabels e) ++ readings rest := by
  obtain ⟨title, mid, ht, h⟩ := bind_eq_accepted_iff.1 h
  obtain ⟨events, _, hes, h⟩ := bind_eq_accepted_iff.1 h
  obtain ⟨u, _, hend, h⟩ := bind_eq_accepted_iff.1 h
  obtain ⟨rfl, rfl⟩ := Outcome.accepted.inj h
  rw [readings_of_text (.inr (.inl rfl)) ht, readings_of_events hes, readings_of_endOfLine hend]
  rfl

theorem readings_of_continuationLine (h : continuationLine ts = .accepted e rest) :
    readings ts = asRead (entryLabels e) ++ readings rest := by
  obtain ⟨events, mid, hes, h⟩ := bind_eq_accepted_iff.1 h
  obtain ⟨u, _, hend, h⟩ := bind_eq_accepted_iff.1 h
  obtain ⟨rfl, rfl⟩ := Outcome.accepted.inj h
  obtain ⟨first, _, hfirst, hes⟩ := bind_eq_accepted_iff.1 hes
  obtain ⟨others, _, hothers, hes⟩ := bind_eq_accepted_iff.1 hes
  obtain ⟨rfl, rfl⟩ := Outcome.accepted.inj hes
  rw [readings_of_text (.inr (.inr rfl)) hfirst, readings_of_events hothers,
    readings_of_endOfLine hend]
  rfl

theorem readings_of_entry (h : entry ts = .accepted e rest) :
    readings ts = asRead (entryLabels e) ++ readings rest := by
  obtain ⟨k, mid, hk, h⟩ := bind_eq_accepted_iff.1 h
  obtain ⟨-, rfl⟩ := Outcome.accepted.inj hk
  split at h
  · exact readings_of_sectionLine h
  · cases h
  · exact readings_of_periodLine h
  · exact readings_of_continuationLine h
  · cases h

/-- A statement takes the tokens of its labels, each of them once and in order. -/
theorem readings_of_statement {item : Statement Entry}
    (h : Statement.production reader entry ts = .accepted item rest) :
    readings ts = asRead (item.entry?.toList.flatMap entryLabels) ++ readings rest := by
  obtain ⟨a, rfl, ha⟩ | ⟨e, rfl, he⟩ := Statement.production_eq_accepted h
  · rw [readings_of_note ha]
    rfl
  · rw [readings_of_entry he]
    simp [Statement.entry?]

theorem readings_of_lines {runs : List (List Token)} {items : List (Statement Entry)}
    (h : List.Forall₂ (fun run item ↦ Statement.production reader entry run = .accepted item [])
      runs items) :
    readings runs.flatten = asRead ((Statement.entries items).flatMap entryLabels) := by
  induction h with
  | nil => rfl
  | @cons run item runs items hrun _ ih =>
    rw [List.flatten_cons, readings_append, readings_of_statement hrun, ih]
    cases item with
    | note a => rfl
    | entry e =>
      rw [show Statement.entries (.entry e :: items) = e :: Statement.entries items from rfl,
        List.flatMap_cons, asRead_append]
      simp [Statement.entry?, readings]

end Entries

section Sections

abbrev labelsOf (sections : List Section) : List String :=
  sections.flatMap Section.labels

variable {sections sections' : List Section} {faults : List Fault}

theorem labelsOf_addPeriod (p : Period) (sections : List Section) :
    labelsOf (addPeriod p sections) = labelsOf sections ++ p.labels := by
  rcases List.eq_nil_or_concat sections with rfl | ⟨front, s, rfl⟩
  · simp [addPeriod, updateLast?, Section.labels]
  · rw [List.concat_eq_append, addPeriod_concat]
    simp [Section.labels]

theorem labelsOf_extend {events : List String} (h : extend? events sections = some sections') :
    labelsOf sections' = labelsOf sections ++ events := by
  obtain ⟨front, s, s', rfl, hs, rfl⟩ := eq_concat_of_updateLast? h
  obtain ⟨periods, hp, rfl⟩ := Option.map_eq_some_iff.1 hs
  obtain ⟨before, p, q, hperiods, hq, rfl⟩ := eq_concat_of_updateLast? hp
  obtain rfl := Option.some.inj hq
  simp [Section.labels, Period.labels, hperiods]

theorem labelsOf_step {e : Entry} (h : step (sections, faults) e = (sections', [])) :
    faults = [] ∧ labelsOf sections' = labelsOf sections ++ entryLabels e := by
  cases e with
  | «section» title =>
    obtain ⟨rfl, rfl⟩ := Prod.mk.inj h
    exact ⟨rfl, by simp [Section.labels, entryLabels]⟩
  | period p =>
    obtain ⟨rfl, rfl⟩ := Prod.mk.inj h
    exact ⟨rfl, labelsOf_addPeriod p sections⟩
  | continuation events =>
    rw [step] at h
    split at h
    case h_1 extended he =>
      obtain ⟨rfl, rfl⟩ := Prod.mk.inj h
      exact ⟨rfl, labelsOf_extend he⟩
    case h_2 => simp at h

theorem labelsOf_foldl_step {entries : List Entry}
    (h : entries.foldl step ([], []) = (sections, [])) :
    labelsOf sections = entries.flatMap entryLabels := by
  induction entries using List.reverseRecOn generalizing sections with
  | nil =>
    obtain ⟨rfl, -⟩ := Prod.mk.inj h
    rfl
  | append_singleton entries e ih =>
    rw [List.foldl_append] at h
    obtain ⟨hfaults, hlabels⟩ := labelsOf_step h
    rw [hlabels, ih (Prod.ext rfl hfaults)]
    simp

end Sections

/-- The labels of an accepted timeline are what its tokens hold, behind the title if it has one. -/
theorem labels_of_parse {text : String} {d : Diagram} (h : Kind.timeline.parse text = .ok d) :
    ∃ tree : Timeline, d = .timeline tree ∧
      ((Kind.timeline.grammar.lexicon.tokenize text.toList).tokens.filter holdsLabel).map reader =
        (tree.sections.flatMap Section.labels).map (fun label ↦ .ok (.text label)) ∧
      d.labels = tree.annotations.title.toList ++ tree.sections.flatMap Section.labels := by
  obtain ⟨header, rest, items, tree, hopen, hlines, hassemble, rfl⟩ := Kind.exists_lines_of_parse h
  obtain ⟨htokens, hkeyword⟩ := keyword_eq_accepted (Grammar.opening_apply .. ▸ hopen)
  obtain ⟨rfl, hfaults⟩ := Prod.mk.inj hassemble
  refine ⟨_, rfl, ?_, rfl⟩
  calc
    readings (Kind.timeline.grammar.lexicon.tokenize text.toList).tokens
      = readings rest := by
        rw [← readings_dropWhile_isNewline, htokens]
        exact readings_cons_of_neg (holdsLabel_of_keyword hkeyword)
    _ = asRead ((Statement.entries items).flatMap entryLabels) := by
        rw [← readings_flatten_lineRuns, readings_of_lines hlines]
    _ = asRead (labelsOf ((Statement.entries items).foldl step ([], [])).1) := by
        rw [labelsOf_foldl_step (Prod.ext rfl hfaults)]

/-- Periods before any section, an event on a line of its own, a title between two periods, a
section without periods, and an event written twice. -/
def scattered : String :=
  "timeline\n2001 : one : two\n   : three\n1999\ntitle  The order\nsection Later\nsection Last\n" ++
    "  2003 : two %% again\n: two : four"

theorem labels_of_parse_scattered :
    ∃ tree : Timeline, Kind.timeline.parse scattered = .ok (.timeline tree) ∧
      ((Kind.timeline.grammar.lexicon.tokenize scattered.toList).tokens.filter holdsLabel).map
          reader =
        ["2001", "one", "two", "three", "1999", "Later", "Last", "2003", "two", "two", "four"].map
          (fun label ↦ .ok (.text label)) ∧
      (Diagram.timeline tree).labels =
        ["The order", "2001", "one", "two", "three", "1999", "Later", "Last", "2003", "two", "two",
          "four"] := by
  have h : Kind.timeline.parse scattered = .ok (.timeline
      { sections :=
          [⟨none, [⟨"2001", ["one", "two", "three"]⟩, ⟨"1999", []⟩]⟩, ⟨some "Later", []⟩,
            ⟨some "Last", [⟨"2003", ["two", "two", "four"]⟩]⟩],
        annotations := { title := some "The order" } }) :=
    Kind.parse_eq_ok_of_toOption (by decide +kernel)
  obtain ⟨tree, hd, htokens, hlabels⟩ := labels_of_parse h
  obtain rfl := Diagram.timeline.inj hd
  exact ⟨_, h, htokens, hlabels⟩

end Timeline

end DiagramText
