import DiagramText.Proofs.Accepted
import DiagramText.Proofs.Alike
import DiagramText.Proofs.Recovery

namespace DiagramText

open Production
open Reader (Blind)

variable {α β : Type} {R : α → α → Prop} {R' : β → β → Prop}

/-- Outcomes with related values and tokens alike after them, or refusals of one sort. -/
inductive Outcome.Alike (R : α → α → Prop) : Outcome α → Outcome α → Prop
  | accepted {a b : α} {ts us : List Token} :
      R a b → TokensAlike ts us → Alike R (.accepted a ts) (.accepted b us)
  | expected {what what' : String} {ts us : List Token} :
      Alike R (.refused (.expected what) ts) (.refused (.expected what') us)
  | invalid {f f' : Fault} {ts us : List Token} :
      Alike R (.refused (.invalid f) ts) (.refused (.invalid f') us)

def SameValue (a b : Spanned α) : Prop :=
  a.value = b.value

namespace Production

def Alike (R : α → α → Prop) (p q : Production α) : Prop :=
  ∀ ts us, TokensAlike ts us → (p ts).Alike R (q us)

variable {p q : Production α} {f g : α → Production β}

theorem alike_pure {a b : α} (h : R a b) : Alike R (pure a) (pure b) :=
  fun _ _ hts ↦ .accepted h hts

theorem alike_expected (what : String) : Alike R (expected what) (expected what) :=
  fun _ _ _ ↦ .expected

theorem alike_invalid (f f' : Fault) : Alike R (invalid f) (invalid f') :=
  fun _ _ _ ↦ .invalid

theorem Alike.bind (hp : Alike R p q) (hf : ∀ a b, R a b → Alike R' (f a) (g b)) :
    Alike R' (p >>= f) (q >>= g) := by
  intro ts us h
  rw [bind_apply, bind_apply]
  have hpq := hp ts us h
  generalize p ts = o, q us = o' at hpq
  cases hpq with
  | accepted hab hrest => exact hf _ _ hab _ _ hrest
  | expected => exact .expected
  | invalid => exact .invalid

theorem Alike.mono {R'' : α → α → Prop} (hp : Alike R p q) (h : ∀ a b, R a b → R'' a b) :
    Alike R'' p q := by
  intro ts us hts
  have hpq := hp ts us hts
  generalize p ts = o, q us = o' at hpq
  cases hpq with
  | accepted hab hrest => exact .accepted (h _ _ hab) hrest
  | expected => exact .expected
  | invalid => exact .invalid

theorem alike_nextKind : Alike Eq nextKind nextKind :=
  fun _ _ h ↦ .accepted h.kind_head? h

theorem alike_nextKind_bind {f : Option Token.Kind → Production β}
    (hf : ∀ k, Alike R' (f k) (f k)) : Alike R' (nextKind >>= f) (nextKind >>= f) :=
  alike_nextKind.bind fun k _ h ↦ h ▸ hf k

theorem alike_newlines {R : Unit → Unit → Prop} (h : R () ()) : Alike R newlines newlines :=
  fun _ _ hts ↦ .accepted h hts.dropWhile_isNewline

theorem alike_endOfLine : Alike Eq endOfLine endOfLine := by
  intro ts us h
  cases h with
  | nil => exact .accepted rfl .nil
  | @cons t u ts us htu h =>
    simp only [endOfLine, htu.isNewline]
    split
    · exact .accepted rfl h.dropWhile_isNewline
    · exact .expected
  | newline ht hu hu' h =>
    simp only [endOfLine, ht, hu, if_true, List.dropWhile_cons_of_pos hu']
    exact .accepted rfl h.dropWhile_isNewline

theorem alike_satisfying {f : Token → Option α} (what : String)
    (hn : ∀ t, t.isNewline = true → f t = none)
    (h : ∀ t u, t.Alike u → Option.Rel R (f t) (f u)) :
    Alike R (satisfying what f) (satisfying what f) := by
  intro ts us hts
  cases hts with
  | nil => exact .expected
  | @cons t u ts us htu hts =>
    have hr := h t u htu
    simp only [satisfying]
    generalize f t = a, f u = b at hr
    cases hr with
    | none => exact .expected
    | some hab => exact .accepted hab hts
  | newline ht hu _ _ =>
    simp only [satisfying, hn _ ht, hn _ hu]
    exact .expected

theorem alike_token {kind : Token.Kind} (hk : kind ≠ .newline) (what : String) :
    Alike (fun t u ↦ t.Alike u ∧ t.kind = kind) (token kind what) (token kind what) := by
  refine alike_satisfying what (fun t ht ↦ ?_) fun t u htu ↦ ?_
  · exact if_neg fun h ↦ hk (h.symm.trans (of_decide_eq_true ht))
  · rw [htu.kind]
    split
    · rename_i hkind
      exact .some ⟨htu, hkind⟩
    · exact .none

theorem alike_keyword (k : Keyword) :
    Alike (fun t u ↦ t.Alike u ∧ t.kind = .keyword k) (keyword k) (keyword k) :=
  alike_token (by simp) k.text

theorem alike_symbol (s : Symbol) :
    Alike (fun t u ↦ t.Alike u ∧ t.kind = .symbol s) (symbol s) (symbol s) :=
  alike_token (by simp) s.text

theorem rel_refl (a : Option α) : Option.Rel Eq a a := by
  cases a with
  | none => exact .none
  | some a => exact .some rfl

theorem alike_keywordOf (ks : List Keyword) (what : String) :
    Alike Eq (keywordOf ks what) (keywordOf ks what) := by
  refine alike_satisfying what (fun t ht ↦ ?_) fun t u htu ↦ ?_
  · simp [of_decide_eq_true ht]
  · rw [htu.kind]
    exact rel_refl _

theorem alike_optional (hp : Alike R p q) : Alike (Option.Rel R) (optional p) (optional q) := by
  intro ts us h
  have hpq := hp ts us h
  unfold optional
  generalize p ts = o, q us = o' at hpq
  cases hpq with
  | accepted hab hrest => exact .accepted (.some hab) hrest
  | expected => exact .accepted .none h
  | invalid => exact .invalid

theorem length_of_text {read : Reader} {kind : Token.Kind} {what : String} {ts rest : List Token}
    {s : Spanned String} (h : text read kind what ts = .accepted s rest) :
    rest.length < ts.length := by
  obtain ⟨v, mid, hv, hs⟩ := bind_eq_accepted_iff.1 h
  obtain ⟨-, rfl⟩ := Outcome.accepted.inj hs
  unfold value at hv
  split at hv
  · cases hv
  · rename_i t mid' ht
    obtain ⟨u, rfl, -⟩ := satisfying_eq_accepted ht
    split at hv
    · obtain ⟨-, rfl⟩ := Outcome.accepted.inj hv
      exact Nat.lt_succ_self _
    · cases hv

theorem map_value_eq {as bs : List (Spanned α)} (h : List.Forall₂ SameValue as bs) :
    as.map Spanned.value = bs.map Spanned.value := by
  induction h with
  | nil => rfl
  | cons hab _ ih => exact congrArg₂ List.cons hab ih

/-- What is read again and again must take a token each time. -/
theorem alike_many (hp : Alike R p q)
    (hlp : ∀ ts a rest, p ts = .accepted a rest → rest.length < ts.length)
    (hlq : ∀ ts a rest, q ts = .accepted a rest → rest.length < ts.length) :
    Alike (List.Forall₂ R) (many p) (many q) := by
  intro ts
  induction hl : ts.length using Nat.strongRecOn generalizing ts with
  | ind n ih =>
    intro us h
    subst hl
    have hpq := hp ts us h
    have hlp := hlp ts
    have hlq := hlq us
    rw [many, many]
    generalize p ts = o, q us = o' at hpq hlp hlq
    cases hpq with
    | @accepted a b rest rest' hab hrest =>
      have hlt := hlp a rest rfl
      have hmany := ih rest.length hlt rest rfl rest' hrest
      simp only [if_pos hlt, if_pos (hlq b rest' rfl)]
      generalize many p rest = o, many q rest' = o' at hmany
      cases hmany with
      | accepted has hend => exact .accepted (.cons hab has) hend
      | expected => exact .expected
      | invalid => exact .invalid
    | expected => exact .accepted .nil h
    | invalid => exact .invalid

theorem alike_value {read : Reader} {kind : Token.Kind} (hb : Blind read kind)
    (hk : kind ≠ .newline) (what : String) :
    Alike SameValue (value read kind what) (value read kind what) := by
  intro ts us h
  have ht := alike_token hk what ts us h
  unfold value
  generalize token kind what ts = o, token kind what us = o' at ht
  cases ht with
  | @accepted t u ts us htu hrest =>
    have hv := hb t u htu.1 htu.2
    cases ht : read t <;> cases hu : read u <;> simp only [ht, hu] at hv ⊢
    · exact .invalid
    · cases hv
    · cases hv
    · exact .accepted (Option.some.inj hv) hrest
  | expected => exact .expected
  | invalid => exact .invalid

theorem alike_text {read : Reader} {kind : Token.Kind} (hb : Blind read kind)
    (hk : kind ≠ .newline) (what : String) :
    Alike SameValue (text read kind what) (text read kind what) :=
  (alike_value hb hk what).bind fun _ _ h ↦ alike_pure (congrArg Value.toText h)

theorem alike_number {read : Reader} {kind : Token.Kind} (hb : Blind read kind)
    (hk : kind ≠ .newline) (what : String) :
    Alike SameValue (number read kind what) (number read kind what) := by
  refine (alike_value hb hk what).bind fun ⟨v, s⟩ ⟨v', s'⟩ h ↦ ?_
  obtain rfl : v = v' := h
  cases v with
  | number x => exact alike_pure rfl
  | text s => exact alike_invalid _ _

end Production

namespace Annotation

theorem alike_line {read : Reader} {kind : Token.Kind} (hb : Blind read kind)
    (hk : kind ≠ .newline) (what : String) (make : String → Annotation) :
    Alike Eq (line read kind what make) (line read kind what make) :=
  (alike_text hb hk what).bind fun _ _ hs ↦
    alike_endOfLine.bind fun _ _ _ ↦ alike_pure (congrArg make hs)

theorem alike_production {read : Reader} (hb : ∀ kind, opensWith kind = true → Blind read kind) :
    Alike Eq (production read) (production read) := by
  refine alike_nextKind_bind fun k ↦ ?_
  split
  · exact alike_line (hb _ rfl) (by simp) _ _
  · exact alike_line (hb _ rfl) (by simp) _ _
  · exact alike_line (hb _ rfl) (by simp) _ _
  · exact alike_expected _

end Annotation

inductive Statement.Alike (R : α → α → Prop) : Statement α → Statement α → Prop
  | note {a : Annotation} : Alike R (.note a) (.note a)
  | entry {a b : α} : R a b → Alike R (.entry a) (.entry b)

namespace Statement

theorem alike_production {read : Reader} {entry : Production α}
    (hb : ∀ kind, Annotation.opensWith kind = true → Blind read kind)
    (he : Production.Alike R entry entry) :
    Production.Alike (Statement.Alike R) (production read entry) (production read entry) := by
  refine alike_nextKind_bind fun k ↦ ?_
  split
  · have hnote := Annotation.alike_production hb
    exact hnote.bind fun a _ h ↦ alike_pure (h ▸ .note)
  · exact he.bind fun _ _ h ↦ alike_pure (.entry h)

variable {as bs : List (Statement α)}

theorem annotations_eq (h : List.Forall₂ (Statement.Alike R) as bs) :
    annotations as = annotations bs := by
  have hn : as.filterMap note? = bs.filterMap note? := by
    induction h with
    | nil => rfl
    | cons hab _ ih =>
      cases hab with
      | note => exact congrArg (List.cons _) ih
      | entry => exact ih
  rw [annotations, annotations, hn]

theorem forall₂_entries (h : List.Forall₂ (Statement.Alike R) as bs) :
    List.Forall₂ R (entries as) (entries bs) := by
  induction h with
  | nil => exact .nil
  | cons hab _ ih =>
    cases hab with
    | note => exact ih
    | entry h => exact .cons h ih

theorem alike_production_eq {read : Reader} {entry : Production α}
    (hb : ∀ kind, Annotation.opensWith kind = true → Blind read kind)
    (he : Production.Alike Eq entry entry) :
    Production.Alike Eq (production read entry) (production read entry) := by
  refine (alike_production hb he).mono fun a b h ↦ ?_
  cases h with
  | note => rfl
  | entry h => exact congrArg Statement.entry h

end Statement

namespace Grammar

open Reader (blind_common_note blind_common_number blind_common_string blind_note)

theorem Info.alike_header : Alike Eq Info.header Info.header := by
  refine (alike_keyword _).bind fun _ _ _ ↦ ?_
  refine (alike_optional ((alike_newlines rfl).bind fun _ _ _ ↦ alike_keyword _)).bind
    fun _ _ h ↦ alike_pure ?_
  cases h <;> rfl

theorem Pie.alike_header : Alike Eq Pie.header Pie.header := by
  refine (alike_keyword _).bind fun _ _ _ ↦ (alike_optional (alike_keyword _)).bind
    fun _ _ h ↦ alike_pure ?_
  cases h <;> rfl

theorem Pie.alike_entry : Alike Eq Pie.entry Pie.entry := by
  refine alike_nextKind_bind fun k ↦ ?_
  split
  · exact (alike_text blind_common_string (by simp) _).bind fun _ _ hl ↦
      (alike_symbol _).bind fun _ _ _ ↦
      (alike_number blind_common_number (by simp) _).bind fun _ _ hv ↦
      alike_endOfLine.bind fun _ _ _ ↦ alike_pure (congrArg₂ Pie.Section.mk hl hv)
  · exact alike_expected _

theorem Packet.alike_bit (what : String) : Alike SameValue (Packet.bit what) (Packet.bit what) := by
  refine (alike_number blind_common_number (by simp) _).bind fun x y h ↦ ?_
  rw [show x.value = y.value from h]
  split
  · exact alike_pure rfl
  · exact alike_invalid _ _

theorem Packet.alike_label : Alike Eq Packet.label Packet.label :=
  (alike_symbol _).bind fun _ _ _ ↦
    (alike_text blind_common_string (by simp) _).bind fun _ _ hs ↦
    alike_endOfLine.bind fun _ _ _ ↦ alike_pure hs

theorem Packet.alike_range : Alike Eq Packet.range Packet.range := by
  refine (Packet.alike_bit _).bind fun first first' hf ↦ ?_
  refine (alike_optional ((alike_symbol _).bind fun _ _ _ ↦ Packet.alike_bit _)).bind
    fun last last' hl ↦ ?_
  have hfilter : Option.Rel SameValue (last.filter fun last ↦ last.value < first.value)
      (last'.filter fun last ↦ last.value < first'.value) := by
    cases hl with
    | none => exact .none
    | @some l l' h =>
      rw [Option.filter_some, Option.filter_some, show l.value = l'.value from h,
        show first.value = first'.value from hf]
      split
      · exact .some h
      · exact .none
  have hmap : last.map Spanned.value = last'.map Spanned.value := by
    cases hl with
    | none => rfl
    | some h => exact congrArg some h
  generalize last.filter _ = o, last'.filter _ = o' at hfilter
  cases hfilter with
  | none => exact Packet.alike_label.bind fun _ _ hs ↦ alike_pure (by rw [hf, hmap, hs])
  | some => exact alike_invalid _ _

theorem Packet.alike_entry : Alike Eq Packet.entry Packet.entry := by
  refine alike_nextKind_bind fun k ↦ ?_
  split
  · exact Packet.alike_range
  · exact (alike_symbol _).bind fun _ _ _ ↦ (Packet.alike_bit _).bind fun _ _ hb ↦
      Packet.alike_label.bind fun _ _ hs ↦ alike_pure (by rw [hb, hs])
  · exact alike_expected _

theorem Sankey.alike_header : Alike Eq Sankey.header Sankey.header :=
  (alike_keywordOf _ _).bind fun _ _ _ ↦ alike_endOfLine

theorem Sankey.alike_entry : Alike Eq Sankey.entry Sankey.entry := by
  refine alike_nextKind_bind fun k ↦ ?_
  split
  · exact (alike_text Sankey.blind_sankeyNode (by simp) _).bind fun _ _ hs ↦
      (alike_symbol _).bind fun _ _ _ ↦
      (alike_text Sankey.blind_sankeyNode (by simp) _).bind fun _ _ ht ↦
      (alike_symbol _).bind fun _ _ _ ↦
      (alike_number Sankey.blind_sankeyValue (by simp) _).bind fun _ _ hv ↦
      alike_endOfLine.bind fun _ _ _ ↦ alike_pure (by rw [hs, ht, hv])
  · exact alike_expected _

theorem Timeline.alike_event : Alike SameValue Timeline.event Timeline.event :=
  alike_text Timeline.blind_periodEvent (by simp) _

theorem Timeline.alike_events :
    Alike (List.Forall₂ SameValue) (many Timeline.event) (many Timeline.event) :=
  alike_many Timeline.alike_event (fun _ _ _ ↦ length_of_text) fun _ _ _ ↦ length_of_text

inductive Timeline.Entry.Alike : Timeline.Entry → Timeline.Entry → Prop
  | same {e : Timeline.Entry} : Alike e e
  | continuation {e e' : Spanned (List String)} :
      SameValue e e' → Alike (.continuation e) (.continuation e')

theorem Timeline.alike_entry :
    Production.Alike Timeline.Entry.Alike Timeline.entry Timeline.entry := by
  refine alike_nextKind_bind fun k ↦ ?_
  split
  · exact (alike_text Timeline.blind_sectionTitle (by simp) _).bind fun _ _ ht ↦
      alike_endOfLine.bind fun _ _ _ ↦ alike_pure (by rw [ht]; exact .same)
  · exact alike_expected _
  · exact (alike_text Timeline.blind_periodTitle (by simp) _).bind fun _ _ ht ↦
      Timeline.alike_events.bind fun _ _ he ↦
      alike_endOfLine.bind fun _ _ _ ↦ alike_pure (by
        rw [ht, map_value_eq he]
        exact .same)
  · exact (Timeline.alike_event.bind fun _ _ he ↦ Timeline.alike_events.bind fun _ _ hes ↦
        alike_pure (List.Forall₂.cons he hes)).bind fun _ _ hes ↦
      alike_endOfLine.bind fun _ _ _ ↦ alike_pure (.continuation (map_value_eq hes))
  · exact alike_expected _

namespace Architecture

theorem alike_identifier (what : String) :
    Production.Alike Eq (identifier what) (identifier what) :=
  (alike_text (blind_reader (by simp)) (by simp) what).bind fun _ _ h ↦ alike_pure h

theorem alike_textOf? {kind : Token.Kind}
    (hk : kind ∈ [.archTextIcon, .archIcon, .archTitle, .identifier]) :
    Production.Alike Eq (textOf? kind) (textOf? kind) := by
  have hn : kind ≠ .newline := fun h ↦ by simp [h] at hk
  refine alike_nextKind_bind fun k ↦ ?_
  split
  · exact (alike_text (blind_reader hk) hn _).bind fun _ _ h ↦ alike_pure (congrArg some h)
  · exact alike_pure rfl

theorem alike_parent : Production.Alike Eq parent parent := by
  have hm : Production.Alike Eq membership membership :=
    (alike_keyword _).bind fun _ _ _ ↦ alike_identifier _
  refine (alike_optional hm).mono fun a b h ↦ ?_
  cases h with
  | none => rfl
  | some h => exact congrArg some h

theorem alike_group : Production.Alike Eq group group :=
  (alike_keyword _).bind fun _ _ _ ↦ (alike_identifier _).bind fun _ _ hi ↦
    (alike_textOf? (by simp)).bind fun _ _ hc ↦ (alike_textOf? (by simp)).bind fun _ _ ht ↦
    alike_parent.bind fun _ _ hp ↦ alike_endOfLine.bind fun _ _ _ ↦
    alike_pure (by rw [hi, hc, ht, hp])

theorem alike_serviceIcon : Production.Alike Eq serviceIcon serviceIcon := by
  refine (alike_textOf? (by simp)).bind fun t _ h ↦ ?_
  subst h
  split
  · exact alike_pure rfl
  · exact (alike_textOf? (by simp)).bind fun _ _ h ↦ alike_pure (by rw [h])

theorem alike_service : Production.Alike Eq service service :=
  (alike_keyword _).bind fun _ _ _ ↦ (alike_identifier _).bind fun _ _ hi ↦
    alike_serviceIcon.bind fun ⟨_, _⟩ ⟨_, _⟩ hc ↦ (alike_textOf? (by simp)).bind fun _ _ ht ↦
    alike_parent.bind fun _ _ hp ↦ alike_endOfLine.bind fun _ _ _ ↦
    alike_pure (by rw [hi, (Prod.mk.inj hc).1, (Prod.mk.inj hc).2, ht, hp])

theorem alike_junction : Production.Alike Eq junction junction :=
  (alike_keyword _).bind fun _ _ _ ↦ (alike_identifier _).bind fun _ _ hi ↦
    alike_parent.bind fun _ _ hp ↦ alike_endOfLine.bind fun _ _ _ ↦
    alike_pure (by rw [hi, hp])

theorem alike_side : Production.Alike Eq side side := by
  refine alike_satisfying _ (fun t ht ↦ ?_) fun t u htu ↦ ?_
  · exact if_neg fun h ↦ by simp [Token.isNewline, h] at ht
  · rw [htu.kind]
    split
    · rename_i hk
      rcases htu.text with he | ⟨hp, -⟩ | hb
      · rw [he]
        exact rel_refl _
      · rw [hk] at hp
        cases hp
      · rw [hk] at hb
        cases hb
    · exact .none

theorem alike_hasSymbol (s : Symbol) : Production.Alike Eq (hasSymbol s) (hasSymbol s) := by
  refine (alike_optional (alike_symbol s)).bind fun _ _ h ↦ alike_pure ?_
  cases h <;> rfl

theorem alike_edgeLine : Production.Alike Eq edgeLine edgeLine := by
  refine alike_nextKind_bind fun k ↦ ?_
  split
  · exact (alike_symbol _).bind fun _ _ _ ↦ alike_pure rfl
  · exact (alike_symbol _).bind fun _ _ _ ↦
      (alike_text (blind_reader (by simp)) (by simp) _).bind fun _ _ ht ↦
      (alike_symbol _).bind fun _ _ _ ↦ alike_pure (congrArg some ht)

theorem alike_edge : Production.Alike Eq edge edge :=
  (alike_identifier _).bind fun _ _ hli ↦ (alike_hasSymbol _).bind fun _ _ hlg ↦
    (alike_symbol _).bind fun _ _ _ ↦ alike_side.bind fun _ _ hls ↦
    (alike_hasSymbol _).bind fun _ _ hla ↦ alike_edgeLine.bind fun _ _ ht ↦
    (alike_hasSymbol _).bind fun _ _ hra ↦ alike_side.bind fun _ _ hrs ↦
    (alike_symbol _).bind fun _ _ _ ↦ (alike_identifier _).bind fun _ _ hri ↦
    (alike_hasSymbol _).bind fun _ _ hrg ↦ alike_endOfLine.bind fun _ _ _ ↦
    alike_pure (by rw [hli, hlg, hls, hla, ht, hra, hrs, hri, hrg])

theorem alike_entry : Production.Alike Eq entry entry := by
  refine alike_nextKind_bind fun k ↦ ?_
  split
  · exact alike_group.bind fun _ _ h ↦ alike_pure (congrArg Entry.group h)
  · exact alike_service.bind fun _ _ h ↦ alike_pure (congrArg Entry.service h)
  · exact alike_junction.bind fun _ _ h ↦ alike_pure (congrArg Entry.junction h)
  · exact alike_edge.bind fun _ _ h ↦ alike_pure (congrArg Entry.edge h)
  · exact alike_expected _

end Architecture

theorem Timeline.foldl_step {as bs : List Timeline.Entry}
    (h : List.Forall₂ Timeline.Entry.Alike as bs) (sections : List Timeline.Section)
    {faults faults' : List Fault} (hf : faults.length = faults'.length) :
    (as.foldl Timeline.step (sections, faults)).1 =
        (bs.foldl Timeline.step (sections, faults')).1 ∧
      (as.foldl Timeline.step (sections, faults)).2.length =
        (bs.foldl Timeline.step (sections, faults')).2.length := by
  induction h generalizing sections faults faults' with
  | nil => exact ⟨rfl, hf⟩
  | @cons a b as bs hab _ ih =>
    rw [List.foldl_cons, List.foldl_cons]
    cases hab with
    | same =>
      cases a with
      | «section» title => exact ih _ hf
      | period p => exact ih _ hf
      | continuation e =>
        simp only [Timeline.step]
        split
        · exact ih _ hf
        · exact ih _ (by rw [List.length_append, List.length_append, hf])
    | @continuation e e' he =>
      simp only [Timeline.step, show e.value = e'.value from he]
      split
      · exact ih _ hf
      · exact ih _ (by rw [List.length_append, List.length_append, hf]; rfl)

theorem Timeline.assemble_alike (t u : Token) {as bs : List (Statement Timeline.Entry)}
    {tree : Diagram} (h : List.Forall₂ (Statement.Alike Timeline.Entry.Alike) as bs)
    (ha : Timeline.assemble t as = (tree, [])) : Timeline.assemble u bs = (tree, []) := by
  obtain ⟨hs, hl⟩ := Timeline.foldl_step (Statement.forall₂_entries h) [] (Eq.refl ([] : List Fault).length)
  obtain ⟨rfl, hf⟩ := Prod.mk.inj ha
  have hf : ((Statement.entries as).foldl Timeline.step ([], [])).2 = [] := hf
  rw [hf] at hl
  have hf' := List.length_eq_zero_iff.1 hl.symm
  rw [Timeline.assemble]
  refine Prod.ext ?_ hf'
  simp only [Statement.annotations_eq h, hs]

/-- What makes no difference to the trees of a grammar. -/
structure Sameness (g : Grammar) where
  header : g.Header → g.Header → Prop
  item : g.Item → g.Item → Prop
  alike_header : Production.Alike header g.header g.header
  alike_statement : Production.Alike item g.statement g.statement
  assemble {h h' : g.Header} {as bs : List g.Item} {tree : Diagram} : header h h' →
    List.Forall₂ item as bs → g.assemble h as = (tree, []) → g.assemble h' bs = (tree, [])

def Sameness.ofEq {g : Grammar} (hh : Production.Alike Eq g.header g.header)
    (hs : Production.Alike Eq g.statement g.statement) : g.Sameness where
  header := Eq
  item := Eq
  alike_header := hh
  alike_statement := hs
  assemble := by
    intro h h' as bs tree he hi ha
    rw [List.forall₂_eq_eq_eq] at hi
    rw [← he, ← hi, ha]

end Grammar

open Grammar Reader in
def Kind.sameness : (k : Kind) → k.grammar.Sameness
  | .info => .ofEq Info.alike_header <| Annotation.alike_production fun _ ↦ blind_common_note
  | .pie => .ofEq Pie.alike_header
      (Statement.alike_production_eq (fun _ ↦ blind_common_note) Pie.alike_entry)
  | .packet => .ofEq (alike_keywordOf _ _)
      (Statement.alike_production_eq (fun _ ↦ blind_common_note) Packet.alike_entry)
  | .sankey => .ofEq Sankey.alike_header
      (Statement.alike_production_eq (fun _ ↦ blind_note fun _ ↦ Sankey.reader_note)
        Sankey.alike_entry)
  | .architecture => .ofEq (alike_keywordOf _ _)
      (Statement.alike_production_eq (fun _ ↦ blind_note fun _ ↦ Architecture.reader_note)
        Architecture.alike_entry)
  | .timeline =>
    { header := fun _ _ ↦ True
      item := Statement.Alike Timeline.Entry.Alike
      alike_header := (alike_keyword _).mono fun _ _ _ ↦ trivial
      alike_statement := Statement.alike_production
        (fun _ ↦ blind_note fun _ ↦ Timeline.reader_note) Timeline.alike_entry
      assemble := fun {t u _ _ _} _ h ↦ Timeline.assemble_alike t u h }

theorem Production.EndsLine.length_lt {p : Production α} (hp : EndsLine p) {u : Token}
    {us rest : List Token} {a : α} (hu : u.isNewline = false)
    (h : p (u :: us) = .accepted a rest) : rest.length < (u :: us).length := by
  obtain ⟨run, tail, he, hn, hr, ht, -⟩ := @exists_line u us hu
  have hline := hp.append hr ht
  rw [← he, h] at hline
  have hlen : 0 < run.length := List.length_pos_iff.2 hn
  have hshort : (tail.dropWhile Token.isNewline).length ≤ tail.length :=
    (List.dropWhile_suffix _).length_le
  rw [he, List.length_append]
  cases hrun : p run with
  | accepted b rest' =>
    rw [hrun] at hline
    obtain ⟨-, rfl⟩ := Outcome.accepted.inj hline.2
    omega
  | refused why rest' =>
    rw [hrun] at hline
    cases hline.2

theorem statements_alike {statement : Production α} (hs : EndsLine statement)
    (ha : Production.Alike R statement statement) (textEnd textEnd' : Nat) {ts us : List Token}
    (h : TokensAlike ts us) (hf : faultsOf (statements statement textEnd ts) = []) :
    faultsOf (statements statement textEnd' us) = [] ∧
      List.Forall₂ R (itemsOf (statements statement textEnd ts))
        (itemsOf (statements statement textEnd' us)) := by
  induction hl : ts.length using Nat.strongRecOn generalizing ts us with
  | ind n ih =>
    subst hl
    have hd := h.dropWhile_isNewline
    have hle : (ts.dropWhile Token.isNewline).length ≤ ts.length :=
      (List.dropWhile_suffix _).length_le
    have hhead := List.head?_dropWhile_not Token.isNewline ts
    generalize hts : ts.dropWhile Token.isNewline = ts', hus : us.dropWhile Token.isNewline = us'
      at hd hle hhead
    cases hd with
    | nil =>
      rw [statements_of_blank hts, statements_of_blank hus]
      exact ⟨rfl, .nil⟩
    | newline ht _ _ _ => simp [ht] at hhead
    | @cons t u ts' us' htu hrest =>
      have ht : t.isNewline = false := by simpa using hhead
      have hu : u.isNewline = false := htu.isNewline.trans ht
      have hout := ha _ _ (.cons htu hrest)
      rw [statements_of_line hts] at hf ⊢
      rw [statements_of_line hus]
      cases ho : statement (t :: ts') <;> cases ho' : statement (u :: us') <;>
        rw [ho, ho'] at hout
      · rename_i a rest b rest'
        obtain ⟨hab, hrest⟩ : R a b ∧ TokensAlike rest rest' := by
          cases hout with
          | accepted hab hrest => exact ⟨hab, hrest⟩
        have hlt := hs.length_lt ht ho
        simp only [ho, if_pos hlt] at hf ⊢
        simp only [if_pos (hs.length_lt hu ho')]
        obtain ⟨hf', hi⟩ := ih rest.length (by omega) hrest hf rfl
        exact ⟨hf', .cons hab hi⟩
      · cases hout
      · cases hout
      · -- A refused statement is a fault, and the first reading has none.
        rw [ho] at hf
        cases hf

namespace Grammar

variable {g : Grammar} {ts us : List Token} {textEnd : Nat} {d : Diagram}

theorem Sameness.opening (s : g.Sameness) : Production.Alike s.header g.opening g.opening :=
  (alike_newlines (R := fun _ _ ↦ True) trivial).bind fun _ _ _ ↦ s.alike_header

theorem Sameness.tree_eq (s : g.Sameness) (hs : EndsLine g.statement) (h : TokensAlike ts us)
    (ht : g.tree textEnd ts = (some d, [])) (textEnd' : Nat) :
    g.tree textEnd' us = (some d, []) := by
  obtain ⟨header, rest, ho, hb⟩ := tree_eq_iff.1 ht
  obtain ⟨hf, tree, ha, hl, hc⟩ := body_eq_iff.1 hb
  have hopen := s.opening ts us h
  rw [ho] at hopen
  cases hu : g.opening us with
  | refused why rest' =>
    rw [hu] at hopen
    cases hopen
  | accepted header' rest' =>
    rw [hu] at hopen
    cases hopen with
    | accepted hh hrest =>
      obtain ⟨hf', hi⟩ := statements_alike hs s.alike_statement textEnd textEnd' hrest hf
      exact tree_eq_iff.2 ⟨header', rest', hu,
        body_eq_iff.2 ⟨hf', tree, s.assemble hh hi ha, hl, hc⟩⟩

end Grammar

/-- Another text is accepted for the same tree, if a walk through it meets tokens alike. -/
theorem Kind.parse_of_walks {k : Kind} {text text' : String} {tree : Diagram} {us : List Token}
    {d : Cursor} (h : k.parse text = .ok tree)
    (hw : k.grammar.lexicon.Walks (.start text'.toList) us [] d) (hd : d.after = [])
    (hts : TokensAlike (k.grammar.lexicon.tokenize text.toList).tokens us) :
    k.parse text' = .ok tree := by
  obtain ⟨-, ht⟩ := parse_eq_ok_iff.1 h
  have hlex : k.grammar.lexicon.tokenize text'.toList = ⟨us, []⟩ := by
    rw [Lexicon.tokenize, hw.scan_eq, Lexicon.scan_of_end hd, List.append_nil, List.append_nil]
  refine parse_eq_ok_iff.2 ⟨by rw [hlex], ?_⟩
  rw [hlex]
  exact k.sameness.tree_eq k.endsLine_statement hts ht _

end DiagramText
