import DiagramText.Proofs.Rules
import DiagramText.Proofs.Walk

namespace DiagramText

variable {α β : Type}

theorem ParseResult.toExcept_eq_ok_iff {r : ParseResult α} {a : α} :
    r.toExcept = .ok a ↔ r.lexerErrors = [] ∧ r.value = some a ∧ r.parserErrors = [] := by
  obtain ⟨value, lexer, parser⟩ := r
  simp only [toExcept, ParseError.ofDiagnostics?]
  by_cases h : lexer ++ parser = []
  · obtain ⟨rfl, rfl⟩ := List.append_eq_nil_iff.1 h
    cases value <;> simp
  · rw [dif_pos h]
    constructor
    · intro h'
      cases h'
    · rintro ⟨rfl, -, rfl⟩
      exact absurd rfl h

namespace Grammar

variable {g : Grammar} {textEnd : Nat} {header : g.Header} {ts : List Token} {d : Diagram}

theorem body_of_assemble {tree : Diagram} {late : List Fault}
    (h : g.assemble header (itemsOf (statements g.statement textEnd ts)) = (tree, late)) :
    g.body textEnd header ts =
      match faultsOf (statements g.statement textEnd ts) ++ late with
      | [] =>
        match g.lacks tree with
        | some fault => (tree, [fault textEnd])
        | none => (g.complete tree, [])
      | faults => (tree, faults) := by
  have h1 := congrArg Prod.fst h
  have h2 := congrArg Prod.snd h
  subst h1 h2
  rfl

theorem body_eq_iff : g.body textEnd header ts = (d, []) ↔
    faultsOf (statements g.statement textEnd ts) = [] ∧
      ∃ tree, g.assemble header (itemsOf (statements g.statement textEnd ts)) = (tree, []) ∧
        g.lacks tree = none ∧ g.complete tree = d := by
  obtain ⟨tree, late, ha⟩ : ∃ tree late,
      g.assemble header (itemsOf (statements g.statement textEnd ts)) = (tree, late) :=
    ⟨_, _, rfl⟩
  rw [body_of_assemble ha, ha]
  cases hf : faultsOf (statements g.statement textEnd ts) ++ late with
  | nil =>
    obtain ⟨hn, rfl⟩ := List.append_eq_nil_iff.1 hf
    cases hl : g.lacks tree <;> simp [hn, hl]
  | cons f fs =>
    constructor
    · intro h
      cases (Prod.mk.inj h).2
    · rintro ⟨hn, _, ht, -⟩
      rw [hn, (Prod.mk.inj ht).2] at hf
      cases hf

theorem tree_eq_iff : g.tree textEnd ts = (some d, []) ↔
    ∃ header rest, g.opening ts = .accepted header rest ∧ g.body textEnd header rest = (d, []) := by
  unfold tree
  cases g.opening ts with
  | refused why rest => simp
  | accepted header rest =>
    change (some (g.body textEnd header rest).1, (g.body textEnd header rest).2) = (some d, []) ↔ _
    constructor
    · intro h
      obtain ⟨hd, hf⟩ := Prod.mk.inj h
      exact ⟨header, rest, rfl, Prod.ext (Option.some.inj hd) hf⟩
    · rintro ⟨header', rest', ho, h⟩
      obtain ⟨rfl, rfl⟩ := Outcome.accepted.inj ho
      rw [h]

end Grammar

theorem Kind.parse_eq_ok_iff {k : Kind} {text : String} {d : Diagram} :
    k.parse text = .ok d ↔
      (k.grammar.lexicon.tokenize text.toList).errors = [] ∧
      k.grammar.tree (Text.byteSize text.toList) (k.grammar.lexicon.tokenize text.toList).tokens =
        (some d, []) := by
  rw [parse, ParseResult.toExcept_eq_ok_iff]
  simp only [Grammar.parse]
  obtain ⟨tree, faults⟩ := k.grammar.tree (Text.byteSize text.toList)
    (k.grammar.lexicon.tokenize text.toList).tokens
  simp

theorem Kind.parse_eq_ok_of_toOption {k : Kind} {text : String} {d : Diagram}
    (h : (k.parse text).toOption = some d) : k.parse text = .ok d := by
  cases hp : k.parse text with
  | ok d' => rw [hp] at h; exact congrArg _ (Option.some.inj h)
  | error e => rw [hp] at h; cases h

namespace Production

theorem bind_eq_accepted_iff {p : Production α} {f : α → Production β} {ts rest : List Token}
    {b : β} :
    (p >>= f) ts = .accepted b rest ↔
      ∃ a mid, p ts = .accepted a mid ∧ f a mid = .accepted b rest := by
  rw [bind_apply]
  cases p ts with
  | accepted a mid => simp
  | refused why mid => simp

theorem satisfying_eq_accepted {what : String} {f : Token → Option α} {ts rest : List Token} {a : α}
    (h : satisfying what f ts = .accepted a rest) : ∃ t, ts = t :: rest ∧ f t = some a := by
  cases ts with
  | nil => cases h
  | cons t ts =>
    simp only [satisfying] at h
    cases ha : f t with
    | none =>
      rw [ha] at h
      cases h
    | some a' =>
      rw [ha] at h
      obtain ⟨rfl, rfl⟩ := Outcome.accepted.inj h
      exact ⟨t, rfl, ha⟩

theorem token_eq_accepted {kind : Token.Kind} {what : String} {ts rest : List Token} {t : Token}
    (h : token kind what ts = .accepted t rest) : ts = t :: rest ∧ t.kind = kind := by
  obtain ⟨u, rfl, hu⟩ := satisfying_eq_accepted h
  obtain ⟨hk, he⟩ := Option.ite_none_right_eq_some.1 hu
  obtain rfl := Option.some.inj he
  exact ⟨rfl, hk⟩

theorem keyword_eq_accepted {k : Keyword} {ts rest : List Token} {t : Token}
    (h : keyword k ts = .accepted t rest) : ts = t :: rest ∧ t.kind = .keyword k :=
  token_eq_accepted h

theorem keywordOf_eq_accepted {ks : List Keyword} {what : String} {ts rest : List Token}
    {k : Keyword} (h : keywordOf ks what ts = .accepted k rest) :
    k ∈ ks ∧ ∃ t, ts = t :: rest ∧ t.kind = .keyword k := by
  obtain ⟨t, rfl, ht⟩ := satisfying_eq_accepted h
  exact ⟨List.mem_of_find?_eq_some ht, t, rfl, by simpa using List.find?_some ht⟩

theorem value_eq_accepted {read : Reader} {kind : Token.Kind} {what : String}
    {ts rest : List Token} {v : Spanned Value} (h : value read kind what ts = .accepted v rest) :
    ∃ t, ts = t :: rest ∧ t.kind = kind ∧ read t = .ok v.value := by
  unfold value at h
  cases ht : token kind what ts with
  | refused why rest =>
    rw [ht] at h
    cases h
  | accepted t mid =>
    obtain ⟨rfl, hk⟩ := token_eq_accepted ht
    rw [ht] at h
    cases hr : read t with
    | error f =>
      simp only [hr] at h
      cases h
    | ok w =>
      simp only [hr] at h
      obtain ⟨rfl, rfl⟩ := Outcome.accepted.inj h
      exact ⟨t, rfl, hk, hr⟩

theorem text_eq_accepted {read : Reader} {kind : Token.Kind} {what : String} {ts rest : List Token}
    {s : Spanned String} (h : text read kind what ts = .accepted s rest) :
    ∃ t v, ts = t :: rest ∧ t.kind = kind ∧ read t = .ok v ∧ s.value = v.toText := by
  obtain ⟨v, mid, hv, h⟩ := bind_eq_accepted_iff.1 h
  obtain ⟨rfl, rfl⟩ := Outcome.accepted.inj h
  obtain ⟨t, rfl, hk, hr⟩ := value_eq_accepted hv
  exact ⟨t, v.value, rfl, hk, hr, rfl⟩

theorem number_eq_accepted {read : Reader} {kind : Token.Kind} {what : String}
    {ts rest : List Token} {x : Spanned Binary64}
    (h : number read kind what ts = .accepted x rest) :
    ∃ t, ts = t :: rest ∧ t.kind = kind ∧ read t = .ok (.number x.value) := by
  obtain ⟨v, mid, hv, hx⟩ := bind_eq_accepted_iff.1 h
  obtain ⟨t, rfl, hk, hr⟩ := value_eq_accepted hv
  cases hy : v.value with
  | number y =>
    simp only [hy] at hx
    obtain ⟨rfl, rfl⟩ := Outcome.accepted.inj hx
    exact ⟨t, rfl, hk, hy ▸ hr⟩
  | text s =>
    simp only [hy] at hx
    cases hx

theorem endOfLine_eq_accepted {ts rest : List Token} {u : Unit}
    (h : endOfLine ts = .accepted u rest) : rest = ts.dropWhile Token.isNewline := by
  cases ts with
  | nil => exact (Outcome.accepted.inj h).2.symm
  | cons t ts =>
    rw [endOfLine] at h
    split at h
    case isTrue ht => rw [List.dropWhile_cons_of_pos ht, (Outcome.accepted.inj h).2]
    case isFalse => cases h

end Production

theorem Grammar.opening_apply (g : Grammar) (ts : List Token) :
    g.opening ts = g.header (ts.dropWhile Token.isNewline) := rfl

theorem Statement.production_eq_accepted {read : Reader} {entry : Production α}
    {ts rest : List Token} {item : Statement α}
    (h : production read entry ts = .accepted item rest) :
    (∃ a, item = .note a ∧ Annotation.production read ts = .accepted a rest) ∨
      ∃ e, item = .entry e ∧ entry ts = .accepted e rest := by
  obtain ⟨kind, mid, hkind, h⟩ := Production.bind_eq_accepted_iff.1 h
  obtain ⟨-, rfl⟩ := Outcome.accepted.inj hkind
  split at h
  case isTrue =>
    obtain ⟨a, _, ha, h⟩ := Production.bind_eq_accepted_iff.1 h
    obtain ⟨rfl, rfl⟩ := Outcome.accepted.inj h
    exact .inl ⟨a, rfl, ha⟩
  case isFalse =>
    obtain ⟨e, _, he, h⟩ := Production.bind_eq_accepted_iff.1 h
    obtain ⟨rfl, rfl⟩ := Outcome.accepted.inj h
    exact .inr ⟨e, rfl, he⟩

def Kind.openers : Kind → List Keyword
  | .info => [.info]
  | .pie => [.pie]
  | .packet => [.packetBeta, .packet]
  | .sankey => [.sankeyBeta, .sankey]
  | .timeline => [.timeline]
  | .architecture => [.architectureBeta, .architecture]

theorem Kind.exists_opener {k : Kind} {ts rest : List Token} {header : k.grammar.Header}
    (h : k.grammar.opening ts = .accepted header rest) :
    ∃ w ∈ k.openers, ∃ t us, ts.dropWhile Token.isNewline = t :: us ∧ t.kind = .keyword w := by
  rw [Grammar.opening_apply] at h
  cases k with
  | info | pie =>
    obtain ⟨t, us, ht, -⟩ := Production.bind_eq_accepted_iff.1 h
    obtain ⟨he, hk⟩ := Production.keyword_eq_accepted ht
    exact ⟨_, List.mem_singleton_self _, t, us, he, hk⟩
  | timeline =>
    obtain ⟨he, hk⟩ := Production.keyword_eq_accepted h
    exact ⟨_, List.mem_singleton_self _, header, rest, he, hk⟩
  | sankey =>
    obtain ⟨w, us, hw, -⟩ := Production.bind_eq_accepted_iff.1 h
    obtain ⟨hm, t, he, hk⟩ := Production.keywordOf_eq_accepted hw
    exact ⟨w, hm, t, us, he, hk⟩
  | packet | architecture =>
    obtain ⟨hm, t, he, hk⟩ := Production.keywordOf_eq_accepted h
    exact ⟨header, hm, t, rest, he, hk⟩

theorem Lexicon.kind_of_match?_base {c : Cursor} {m : Match} (h : base.match? c = some m) :
    m.kind.isHidden = true ∨ m.kind = .newline := by
  have hall : ∀ r ∈ base.rules, r.kind.isHidden = true ∨ r.kind = .newline := by decide
  obtain ⟨r, hr, hk⟩ := exists_rule_of_match? h
  exact hk ▸ hall r hr

theorem Kind.kind_of_mem_shapes {k : Kind} :
    ∀ s ∈ k.shapes, s.kind.isHidden = false ∧ s.kind ≠ .newline := by
  cases k <;> decide

theorem Kind.match?_keyword {k : Kind} {c : Cursor} {m : Match} {w : Keyword}
    (h : k.grammar.lexicon.match? c = some m) (hw : m.kind = .keyword w) :
    Lexicon.base.match? c = none ∧ m.text = w.text.toList := by
  have hp : Pattern.keyword w.text.toList c.after = some (m.text, m.rest) :=
    eq_of_match? h (congrArg Token.Kind.pattern? hw)
  refine ⟨?_, (Pattern.literal_eq_some_iff.1 (Option.filter_eq_some_iff.1 hp).1).1⟩
  rw [k.match?_lexicon] at h
  cases hb : Lexicon.base.match? c with
  | none => rfl
  | some m' =>
    rw [hb] at h
    obtain rfl := Option.some.inj h
    have hk := Lexicon.kind_of_match?_base hb
    rw [hw] at hk
    simp [Token.Kind.isHidden] at hk

theorem Kind.match?_base {k : Kind} {c : Cursor} {m : Match}
    (h : k.grammar.lexicon.match? c = some m) (hk : m.kind.isHidden = true ∨ m.kind = .newline) :
    Lexicon.base.match? c = some m := by
  rw [k.match?_lexicon] at h
  cases hb : Lexicon.base.match? c with
  | some m' => rwa [hb] at h
  | none =>
    rw [hb, Option.none_or] at h
    obtain ⟨s, hs, hm⟩ := List.exists_of_findSome?_eq_some h
    obtain ⟨hh, hn⟩ := kind_of_mem_shapes s hs
    rw [(Shape.match?_eq_some_iff.1 hm).1] at hh hn
    rcases hk with hk | hk
    · rw [hk] at hh
      cases hh
    · exact absurd hk hn

/-- Matches of the shared rules lead from the cursor to the word. -/
inductive Opens (word : List Char) : Cursor → Prop
  | here {c : Cursor} {rest : List Char} :
      Lexicon.base.match? c = none → c.after = word ++ rest → Opens word c
  | past {c : Cursor} {m : Match} :
      Lexicon.base.match? c = some m → Opens word (c.past m.text m.rest) → Opens word c

theorem Kind.opens_of_walks {k : Kind} {c c' : Cursor} {ts us : List Token} {t : Token}
    {w : Keyword} {es : List Diagnostic} (h : k.grammar.lexicon.Walks c ts es c')
    (ht : ts.dropWhile Token.isNewline = t :: us) (hk : t.kind = .keyword w) :
    Opens w.text.toList c := by
  induction h with
  | done c => cases ht
  | skip hm hh _ ih => exact .past (k.match?_base hm (.inl hh)) (ih ht)
  | @take c c' m ts es hm _ _ ih =>
    by_cases hn : m.kind = .newline
    · rw [List.dropWhile_cons_of_pos (by simp [Token.isNewline, Lexicon.token, hn])] at ht
      exact .past (k.match?_base hm (.inr hn)) (ih ht)
    · rw [List.dropWhile_cons_of_neg (by simp [Token.isNewline, Lexicon.token, hn])] at ht
      obtain ⟨rfl, -⟩ := List.cons.inj ht
      obtain ⟨hb, hw⟩ := k.match?_keyword hm hk
      exact .here hb (hw ▸ (Lexicon.after_eq_of_match? hm).1)
  | giveUp =>
    -- The run given up is no line end, so it would be the keyword.
    rw [List.dropWhile_cons_of_neg
      (by simp [Token.isNewline, Lexicon.unmatchedToken, Lexicon.token])] at ht
    obtain ⟨rfl, -⟩ := List.cons.inj ht
    cases hk

theorem Kind.exists_opens_of_value {k : Kind} {text : String}
    (h : (k.grammar.parse text).value.isSome) :
    ∃ w ∈ k.openers, Opens w.text.toList (.start text.toList) := by
  obtain ⟨c', -, hwalk⟩ := k.grammar.lexicon.walks_scan (.start text.toList)
  simp only [Grammar.parse, Grammar.tree, Lexicon.tokenize] at h
  cases ho : k.grammar.opening (k.grammar.lexicon.scan (.start text.toList)).tokens with
  | accepted header rest =>
    obtain ⟨w, hw, t, us, hd, hk⟩ := exists_opener ho
    exact ⟨w, hw, opens_of_walks hwalk hd hk⟩
  | refused why rest =>
    rw [ho] at h
    cases h

theorem Kind.exists_opens {k : Kind} {text : String} {d : Diagram} (h : k.parse text = .ok d) :
    ∃ w ∈ k.openers, Opens w.text.toList (.start text.toList) := by
  refine exists_opens_of_value ?_
  rw [(ParseResult.toExcept_eq_ok_iff.1 h).2.1]
  rfl

/-- The shared rules lead to one place, so two words that they lead to begin the same text. -/
theorem Opens.exists_append_eq {word word' : List Char} {c : Cursor} (h : Opens word c)
    (h' : Opens word' c) : ∃ rest rest', word ++ rest = word' ++ rest' := by
  induction h with
  | @here c rest hn ha =>
    cases h' with
    | @here _ rest' _ ha' => exact ⟨rest, rest', ha.symm.trans ha'⟩
    | past hm =>
      rw [hn] at hm
      cases hm
  | past hm _ ih =>
    cases h' with
    | here hn =>
      rw [hn] at hm
      cases hm
    | past hm' ho =>
      obtain rfl := Option.some.inj (hm.symm.trans hm')
      exact ih ho

theorem Kind.eq_of_openers {k k' : Kind} {w w' : Keyword} (hw : w ∈ k.openers)
    (hw' : w' ∈ k'.openers) {rest rest' : List Char}
    (h : w.text.toList ++ rest = w'.text.toList ++ rest') : k = k' := by
  have hall : ∀ k ∈ all, ∀ k' ∈ all, ∀ w ∈ k.openers, ∀ w' ∈ k'.openers,
      w.text.toList <+: w'.text.toList → k = k' := by decide
  have hp : w.text.toList <+: w.text.toList ++ rest := List.prefix_append _ _
  have hp' : w'.text.toList <+: w.text.toList ++ rest := h ▸ List.prefix_append _ _
  rcases List.prefix_or_prefix_of_prefix hp hp' with hpre | hpre
  · exact hall k k.mem_all k' k'.mem_all w hw w' hw' hpre
  · exact (hall k' k'.mem_all k k.mem_all w' hw' w hw hpre).symm

/-- Where one kind has a tree of a text, no other kind has one, not even beside errors. -/
theorem Kind.value_isSome_iff {k : Kind} {text : String}
    (h : (k.grammar.parse text).value.isSome) (k' : Kind) :
    (k'.grammar.parse text).value.isSome ↔ k' = k := by
  constructor
  · intro h'
    obtain ⟨w, hw, hopens⟩ := exists_opens_of_value h
    obtain ⟨w', hw', hopens'⟩ := exists_opens_of_value h'
    obtain ⟨rest, rest', he⟩ := hopens'.exists_append_eq hopens
    exact eq_of_openers hw' hw he
  · rintro rfl
    exact h

theorem Kind.value_isSome_iff_broken :
    (Kind.sankey.grammar.parse "%% packet\n\nsankey\n\"a").value.isSome ∧
    (Kind.sankey.grammar.parse "%% packet\n\nsankey\n\"a").lexerErrors.length = 1 ∧
    ((Kind.packet.grammar.parse "%% packet\n\nsankey\n\"a").value.isSome ↔
      Kind.packet = .sankey) := by
  have h : (Kind.sankey.grammar.parse "%% packet\n\nsankey\n\"a").value.isSome := by
    decide +kernel
  exact ⟨h, by decide +kernel, value_isSome_iff h .packet⟩

end DiagramText
