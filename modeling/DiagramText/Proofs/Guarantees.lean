import DiagramText.Proofs.Meets

namespace DiagramText

open Production

variable {α : Type} {Q : Span → Prop} {R : α → Prop}

namespace Reader

theorem eq_of_numberOf_eq_error {t : Token} {cs : List Char} {f : Fault}
    (h : (numberOf t cs).map Value.number = .error f) : f = .notANumber t.text t.span := by
  unfold numberOf at h
  cases hx : Binary64.ofText? cs with
  | some x =>
    rw [hx] at h
    cases h
  | none =>
    rw [hx] at h
    exact (Except.error.inj h).symm

theorem blamesNumbers_common : common.BlamesNumbers := by
  intro t f h
  unfold common at h
  split at h
  case h_5 => exact eq_of_numberOf_eq_error h
  all_goals cases h

end Reader

theorem Span.unionAll_at (hQ : UnionClosed Q) {spans : List Span} (hn : spans ≠ [])
    (h : ∀ s ∈ spans, Q s) : Q (unionAll spans) := by
  obtain ⟨s, spans, rfl⟩ := List.exists_cons_of_ne_nil hn
  obtain ⟨hs, hspans⟩ := List.forall_mem_cons.1 h
  clear hn h
  induction spans generalizing s with
  | nil => exact hs
  | cons t spans ih =>
    obtain ⟨ht, hrest⟩ := List.forall_mem_cons.1 hspans
    exact ih (s.union t) (hQ s t hs ht) hrest

namespace Annotation

variable {read : Reader} (hr : read.BlamesNumbers)
include hr

theorem meets_line (kind : Token.Kind) (what : String) (make : String → Annotation) :
    Meets Q (line read kind what make) fun _ ↦ True :=
  (meets_text hr kind what).bind fun _ _ ↦ meets_endOfLine_pure trivial

theorem meets_production : Meets Q (production read) fun _ ↦ True := by
  refine meets_nextKind.bind fun k _ ↦ ?_
  split
  · exact meets_line hr _ _ _
  · exact meets_line hr _ _ _
  · exact meets_line hr _ _ _
  · exact meets_expected _

end Annotation

theorem Statement.meets_production {read : Reader} (hr : read.BlamesNumbers) {entry : Production α}
    (he : Meets Q entry R) :
    Meets Q (Statement.production read entry) fun s ↦ ∀ e ∈ s.entry?, R e := by
  refine meets_nextKind.bind fun k _ ↦ ?_
  split
  · have hnote := Annotation.meets_production (Q := Q) hr
    exact hnote.bind_pure fun _ _ ↦ nofun
  · exact he.bind_pure fun e h e' he' ↦ Option.some.inj he' ▸ h

theorem Statement.forall_entries {items : List (Statement α)}
    (h : ∀ i ∈ items, ∀ e ∈ i.entry?, R e) : ∀ e ∈ entries items, R e := by
  intro e he
  obtain ⟨i, hi, hie⟩ := List.mem_filterMap.1 he
  exact h i hi e hie

/-- A range that begins with a first bit and does not end before it, or a width. -/
inductive Packet.Block.WellFormed : Packet.Block → Prop
  | range {first : Nat} {last : Option Nat} {label : String} :
      (∀ n ∈ last, first ≤ n) → WellFormed ⟨some first, last, none, label⟩
  | width {bits : Nat} {label : String} : WellFormed ⟨none, none, some bits, label⟩

/-- A service has an icon or a text in its place, or neither. -/
def Architecture.Service.WellFormed (s : Service) : Prop :=
  s.icon = none ∨ s.iconText = none

namespace Grammar

namespace Info

theorem meets_header : Meets Q header fun _ ↦ True :=
  (meets_keyword _).bind fun _ _ ↦
    (meets_optional (meets_newlines.bind fun _ _ ↦ meets_keyword _)).bind_pure fun _ _ ↦ trivial

end Info

namespace Pie

theorem meets_header : Meets Q header fun _ ↦ True :=
  (meets_keyword _).bind fun _ _ ↦
    (meets_optional (meets_keyword _)).bind_pure fun _ _ ↦ trivial

theorem meets_entry : Meets Q entry fun _ ↦ True := by
  refine meets_nextKind.bind fun k _ ↦ ?_
  split
  · exact (meets_text Reader.blamesNumbers_common _ _).bind fun _ _ ↦
      (meets_symbol _).bind fun _ _ ↦
      (meets_number Reader.blamesNumbers_common _ _).bind fun _ _ ↦ meets_endOfLine_pure trivial
  · exact meets_expected _

end Pie

namespace Packet

open DiagramText.Packet (Block.WellFormed)

theorem meets_bit (what : String) : Meets Q (bit what) fun n ↦ Q n.span := by
  refine (meets_number Reader.blamesNumbers_common _ what).bind fun x hx ↦ ?_
  split
  · exact meets_pure hx
  · exact meets_invalid ⟨rfl, List.forall_mem_singleton.2 hx⟩

theorem meets_label : Meets Q label fun _ ↦ True :=
  (meets_symbol _).bind fun _ _ ↦
    (meets_text Reader.blamesNumbers_common _ _).bind fun _ _ ↦ meets_endOfLine_pure trivial

theorem meets_lastBit : Meets Q lastBit fun n ↦ Q n.span :=
  (meets_symbol _).bind fun _ _ ↦ meets_bit _

theorem meets_range : Meets Q range Block.WellFormed := by
  refine (meets_bit _).bind fun first hfirst ↦ ?_
  refine (meets_optional meets_lastBit).bind fun last hlast ↦ ?_
  split
  · rename_i n hn
    have hn : n ∈ last := (Option.filter_eq_some_iff.1 hn).1
    exact meets_invalid
      ⟨rfl, List.forall_mem_cons.2 ⟨hlast n hn, List.forall_mem_singleton.2 hfirst⟩⟩
  · rename_i hn
    refine meets_label.bind_pure fun _ _ ↦ .range fun m hm ↦ ?_
    obtain ⟨n, hl, rfl⟩ := Option.map_eq_some_iff.1 hm
    have hlt := Option.filter_eq_none_iff.1 hn n hl
    simpa using hlt

theorem meets_width : Meets Q width Block.WellFormed :=
  (meets_symbol _).bind fun _ _ ↦ (meets_bit _).bind fun _ _ ↦
    meets_label.bind_pure fun _ _ ↦ .width

theorem meets_entry : Meets Q entry Block.WellFormed := by
  refine meets_nextKind.bind fun k _ ↦ ?_
  split
  · exact meets_range
  · exact meets_width
  · exact meets_expected _

end Packet

namespace Sankey

theorem blamesNumbers_reader : reader.BlamesNumbers := by
  intro t f h
  unfold reader at h
  split at h
  · cases h
  · exact Reader.eq_of_numberOf_eq_error h
  · exact Reader.blamesNumbers_common t f h

theorem meets_header : Meets Q header fun _ ↦ True :=
  (meets_keywordOf _ _).bind fun _ _ ↦ meets_endOfLine

theorem meets_entry : Meets Q entry fun _ ↦ True := by
  refine meets_nextKind.bind fun k _ ↦ ?_
  split
  · exact (meets_text blamesNumbers_reader _ _).bind fun _ _ ↦ (meets_symbol _).bind fun _ _ ↦
      (meets_text blamesNumbers_reader _ _).bind fun _ _ ↦ (meets_symbol _).bind fun _ _ ↦
      (meets_number blamesNumbers_reader _ _).bind fun _ _ ↦ meets_endOfLine_pure trivial
  · exact meets_expected _

end Sankey

namespace Timeline

theorem blamesNumbers_reader : reader.BlamesNumbers := by
  intro t f h
  unfold reader at h
  split at h
  case h_4 => exact Reader.blamesNumbers_common t f h
  all_goals cases h

def Entry.continuation? : Entry → Option Span
  | continuation events => some events.span
  | _ => none

theorem meets_event : Meets Q event fun s ↦ Q s.span :=
  meets_text blamesNumbers_reader _ _

theorem meets_continuationLine (hQ : Span.UnionClosed Q) :
    Meets Q continuationLine fun e ↦ ∀ s ∈ e.continuation?, Q s := by
  refine (meets_many1 meets_event).bind fun events hevents ↦ meets_endOfLine_pure ?_
  have hspans : ∀ s ∈ events.map Spanned.span, Q s := by
    intro s hs
    obtain ⟨e, he, rfl⟩ := List.mem_map.1 hs
    exact hevents.2 e he
  rintro _ ⟨⟩
  exact Span.unionAll_at hQ (by simpa using hevents.1) hspans

theorem meets_entry (hQ : Span.UnionClosed Q) :
    Meets Q entry fun e ↦ ∀ s ∈ e.continuation?, Q s := by
  refine meets_nextKind.bind fun k _ ↦ ?_
  split
  · exact (meets_text blamesNumbers_reader _ _).bind fun _ _ ↦ meets_endOfLine_pure nofun
  · exact meets_expected _
  · exact (meets_text blamesNumbers_reader _ _).bind fun _ _ ↦
      (meets_many meets_event).bind fun _ _ ↦ meets_endOfLine_pure nofun
  · exact meets_continuationLine hQ
  · exact meets_expected _

end Timeline

namespace Architecture

theorem blamesNumbers_reader : reader.BlamesNumbers := by
  intro t f h
  unfold reader at h
  split at h
  case h_4 => exact Reader.blamesNumbers_common t f h
  all_goals cases h

def Entry.WellFormed : Entry → Prop
  | service s => s.WellFormed
  | _ => True

theorem meets_identifier (what : String) : Meets Q (identifier what) fun _ ↦ True :=
  (meets_text blamesNumbers_reader _ _).bind_pure fun _ _ ↦ trivial

theorem meets_textOf? (kind : Token.Kind) : Meets Q (textOf? kind) fun _ ↦ True := by
  refine meets_nextKind.bind fun k _ ↦ ?_
  split
  · exact (meets_text blamesNumbers_reader _ _).bind_pure fun _ _ ↦ trivial
  · exact meets_pure trivial

theorem meets_parent : Meets Q parent fun _ ↦ True :=
  (meets_optional ((meets_keyword _).bind fun _ _ ↦ meets_identifier _)).mono fun _ _ ↦ trivial

theorem meets_group : Meets Q group fun _ ↦ True :=
  (meets_keyword _).bind fun _ _ ↦ (meets_identifier _).bind fun _ _ ↦
    (meets_textOf? _).bind fun _ _ ↦ (meets_textOf? _).bind fun _ _ ↦
    meets_parent.bind fun _ _ ↦ meets_endOfLine_pure trivial

theorem meets_serviceIcon : Meets Q serviceIcon fun icons ↦ icons.1 = none ∨ icons.2 = none := by
  refine (meets_textOf? _).bind fun t _ ↦ ?_
  split
  · exact meets_pure (.inl rfl)
  · exact (meets_textOf? _).bind_pure fun _ _ ↦ .inr rfl

theorem meets_service : Meets Q service DiagramText.Architecture.Service.WellFormed :=
  (meets_keyword _).bind fun _ _ ↦ (meets_identifier _).bind fun _ _ ↦
    meets_serviceIcon.bind fun _ hicons ↦ (meets_textOf? _).bind fun _ _ ↦
    meets_parent.bind fun _ _ ↦ meets_endOfLine_pure hicons

theorem meets_junction : Meets Q junction fun _ ↦ True :=
  (meets_keyword _).bind fun _ _ ↦ (meets_identifier _).bind fun _ _ ↦
    meets_parent.bind fun _ _ ↦ meets_endOfLine_pure trivial

theorem meets_side : Meets Q side fun _ ↦ True :=
  meets_satisfying fun _ _ _ _ ↦ trivial

theorem meets_hasSymbol (s : Symbol) : Meets Q (hasSymbol s) fun _ ↦ True :=
  (meets_optional (meets_symbol s)).bind_pure fun _ _ ↦ trivial

theorem meets_edgeLine : Meets Q edgeLine fun _ ↦ True := by
  refine meets_nextKind.bind fun k _ ↦ ?_
  split
  · exact (meets_symbol _).bind_pure fun _ _ ↦ trivial
  · exact (meets_symbol _).bind fun _ _ ↦ (meets_text blamesNumbers_reader _ _).bind fun _ _ ↦
      (meets_symbol _).bind_pure fun _ _ ↦ trivial

theorem meets_edge : Meets Q edge fun _ ↦ True :=
  (meets_identifier _).bind fun _ _ ↦ (meets_hasSymbol _).bind fun _ _ ↦
    (meets_symbol _).bind fun _ _ ↦ meets_side.bind fun _ _ ↦
    (meets_hasSymbol _).bind fun _ _ ↦ meets_edgeLine.bind fun _ _ ↦
    (meets_hasSymbol _).bind fun _ _ ↦ meets_side.bind fun _ _ ↦
    (meets_symbol _).bind fun _ _ ↦ (meets_identifier _).bind fun _ _ ↦
    (meets_hasSymbol _).bind fun _ _ ↦ meets_endOfLine_pure trivial

theorem meets_entry : Meets Q entry Entry.WellFormed := by
  refine meets_nextKind.bind fun k _ ↦ ?_
  split
  · exact meets_group.bind_pure fun _ _ ↦ trivial
  · exact meets_service.bind_pure fun _ h ↦ h
  · exact meets_junction.bind_pure fun _ _ ↦ trivial
  · exact meets_edge.bind_pure fun _ _ ↦ trivial
  · exact meets_expected _

end Architecture

end Grammar

namespace Kind

/-- What a statement of the kind guarantees of its item, at spans of which `Q` holds. -/
def Guarantees (Q : Span → Prop) : (k : Kind) → k.grammar.Item → Prop
  | packet => fun s : Statement Packet.Block ↦ ∀ b ∈ s.entry?, b.WellFormed
  | timeline => fun s : Statement Grammar.Timeline.Entry ↦
    ∀ e ∈ s.entry?, ∀ span ∈ e.continuation?, Q span
  | architecture => fun s : Statement Grammar.Architecture.Entry ↦ ∀ e ∈ s.entry?, e.WellFormed
  | info | pie | sankey => fun _ ↦ True

theorem meets_statement (k : Kind) (hQ : Span.UnionClosed Q) :
    Meets Q k.grammar.statement (k.Guarantees Q) := by
  cases k with
  | info => exact Annotation.meets_production Reader.blamesNumbers_common
  | pie =>
    exact (Statement.meets_production Reader.blamesNumbers_common Grammar.Pie.meets_entry).mono
      fun _ _ ↦ trivial
  | packet =>
    exact Statement.meets_production Reader.blamesNumbers_common Grammar.Packet.meets_entry
  | sankey =>
    exact (Statement.meets_production Grammar.Sankey.blamesNumbers_reader
      Grammar.Sankey.meets_entry).mono fun _ _ ↦ trivial
  | timeline =>
    exact Statement.meets_production Grammar.Timeline.blamesNumbers_reader
      (Grammar.Timeline.meets_entry hQ)
  | architecture =>
    exact Statement.meets_production Grammar.Architecture.blamesNumbers_reader
      Grammar.Architecture.meets_entry

theorem meets_opening (k : Kind) : Meets Q k.grammar.opening fun _ ↦ True := by
  refine meets_newlines.bind fun _ _ ↦ ?_
  cases k with
  | info => exact Grammar.Info.meets_header
  | pie => exact Grammar.Pie.meets_header
  | sankey => exact Grammar.Sankey.meets_header
  | timeline => exact meets_keyword _
  | packet | architecture => exact meets_keywordOf _ _

end Kind

end DiagramText
