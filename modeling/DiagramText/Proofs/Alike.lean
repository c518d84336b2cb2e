import DiagramText.Proofs.Returns
import DiagramText.Proofs.Rules

namespace DiagramText

open Text (after? between? byteSize dropAll dropBytes isBlank startsWith trim trimEnd trimStart
  withReturns)
open Pattern (isSpace)

namespace Text

variable {mark : List Char} {z : Char}

theorem after?_append (h : z ∉ mark) (cs rest : List Char) :
    after? mark (cs ++ z :: rest) = (after? mark cs).map (· ++ z :: rest) := by
  induction mark generalizing cs with
  | nil => rfl
  | cons m ms ih =>
    obtain ⟨hm, hms⟩ := not_or.1 (mt List.mem_cons.2 h)
    cases cs with
    | nil => simp [after?, Ne.symm hm]
    | cons c cs =>
      by_cases hc : m = c
      · simpa [after?, hc] using ih hms cs
      · simp [after?, hc]

theorem startsWith_append (h : z ∉ mark) (cs rest : List Char) :
    startsWith mark (cs ++ z :: rest) = startsWith mark cs := by
  simp [startsWith, after?_append h]

theorem dropAll_append (h : z ∉ mark) (cs : List Char) :
    dropAll mark (cs ++ [z]) = dropAll mark cs ++ [z] := by
  induction hl : cs.length using Nat.strongRecOn generalizing cs with
  | ind n ih =>
    subst hl
    rw [dropAll, dropAll, after?_append h]
    cases ha : after? mark cs with
    | none => rfl
    | some rest =>
      simp only [Option.map_some, List.length_append, List.length_singleton,
        Nat.add_lt_add_iff_right]
      split
      · rename_i hlt
        exact ih rest.length hlt rest rfl
      · rfl

theorem dropWhile_append_cons {p : Char → Bool} (hz : p z = false) (cs rest : List Char) :
    (cs ++ z :: rest).dropWhile p = cs.dropWhile p ++ z :: rest := by
  rw [List.dropWhile_append, List.dropWhile_cons_of_neg (by simp [hz])]
  split
  · rename_i h
    rw [List.isEmpty_iff.1 h, List.nil_append]
  · rfl

theorem dropBytes_append (mark cs : List Char) : dropBytes (byteSize mark) (mark ++ cs) = cs := by
  rw [dropBytes, splitBytes?_eq_some_iff.2 ⟨rfl, rfl⟩]
  rfl

theorem dropWhileEnd_concat {p : Char → Bool} (hz : p z = true) (cs : List Char) :
    dropWhileEnd p (cs ++ [z]) = dropWhileEnd p cs := by
  simp [dropWhileEnd, hz]

theorem trim_append_blank (hz : isBlank z = true) (cs : List Char) :
    trim (cs ++ [z]) = trim cs := by
  rw [trim, trim, trimStart, List.dropWhile_append, List.dropWhile_cons_of_pos hz]
  split
  · rename_i h
    rw [trimStart, List.isEmpty_iff.1 h]
    rfl
  · exact dropWhileEnd_concat hz _

end Text

/-- Tokens whose text may have one more blank at its end: no reader of their kinds sees it there. -/
inductive Token.Pads : Token.Kind → List Char → Prop
  | whitespace {text : List Char} : Pads .whitespace text
  | title {text : List Char} : Pads .title ("title".toList ++ text)
  | accTitle {text : List Char} : Pads .accTitle text
  | accDescr {spaces text : List Char} : (∀ c ∈ spaces, isSpace c = true) →
      Pads .accDescr ("accDescr".toList ++ (spaces ++ ([':'] ++ text)))
  | sectionTitle {text : List Char} : Pads .sectionTitle text
  | periodTitle {text : List Char} : Pads .periodTitle text
  | periodEvent {text : List Char} : Pads .periodEvent text
  | sankeyNode {text : List Char} : startsWith ['"'] text = false → Pads .sankeyNode text

/-- Texts of tokens that differ in the form of their line ends: a line end itself, and a description
in braces, whose line feeds have carriage returns before them in one of the two texts. -/
inductive Token.Rebroken : Token.Kind → List Char → List Char → Prop
  | newline {text text' : List Char} : Rebroken .newline text text'
  | returns {blanks text : List Char} : (∀ c ∈ blanks, isBlank c = true) → '\r' ∉ text →
      Rebroken .accDescr ("accDescr".toList ++ (blanks ++ '\x7b' :: text))
        ("accDescr".toList ++ (withReturns blanks ++ '\x7b' :: withReturns text))
  | feeds {blanks text : List Char} : (∀ c ∈ blanks, isBlank c = true) → '\r' ∉ text →
      Rebroken .accDescr ("accDescr".toList ++ (withReturns blanks ++ '\x7b' :: withReturns text))
        ("accDescr".toList ++ (blanks ++ '\x7b' :: text))

/-- The tokens are of one kind, and of one text but for a blank that does not count or for the form
of line ends. -/
structure Token.Alike (t u : Token) : Prop where
  kind : u.kind = t.kind
  text : u.text = t.text ∨
    (Token.Pads t.kind t.text.toList ∧ u.text.toList = t.text.toList ++ [' ']) ∨
    Token.Rebroken t.kind t.text.toList u.text.toList

theorem Token.Alike.isNewline {t u : Token} (h : t.Alike u) : u.isNewline = t.isNewline := by
  rw [Token.isNewline, Token.isNewline, h.kind]

/-- Tokens alike, one by one, but that a line end may be doubled. -/
inductive TokensAlike : List Token → List Token → Prop
  | nil : TokensAlike [] []
  | cons {t u : Token} {ts us : List Token} :
      t.Alike u → TokensAlike ts us → TokensAlike (t :: ts) (u :: us)
  | newline {t u u' : Token} {ts us : List Token} : t.isNewline = true → u.isNewline = true →
      u'.isNewline = true → TokensAlike ts us → TokensAlike (t :: ts) (u :: u' :: us)

namespace TokensAlike

variable {ts us : List Token}

theorem dropWhile_isNewline (h : TokensAlike ts us) :
    TokensAlike (ts.dropWhile Token.isNewline) (us.dropWhile Token.isNewline) := by
  induction h with
  | nil => exact .nil
  | @cons t u ts us htu h ih =>
    have hu := htu.isNewline
    cases ht : t.isNewline with
    | true =>
      rw [List.dropWhile_cons_of_pos ht, List.dropWhile_cons_of_pos (hu.trans ht)]
      exact ih
    | false =>
      rw [ht] at hu
      rw [List.dropWhile_cons_of_neg (by simp [ht]), List.dropWhile_cons_of_neg (by simp [hu])]
      exact .cons htu h
  | newline ht hu hu' _ ih =>
    rw [List.dropWhile_cons_of_pos ht, List.dropWhile_cons_of_pos hu,
      List.dropWhile_cons_of_pos hu']
    exact ih

theorem append {ts' us' : List Token} (h : TokensAlike ts us) (h' : TokensAlike ts' us') :
    TokensAlike (ts ++ ts') (us ++ us') := by
  induction h with
  | nil => exact h'
  | cons htu _ ih => exact .cons htu ih
  | newline ht hu hu' _ ih => exact .newline ht hu hu' ih

theorem kind_head? (h : TokensAlike ts us) :
    ts.head?.map Token.kind = us.head?.map Token.kind := by
  cases h with
  | nil => rfl
  | cons htu _ => exact congrArg some htu.kind.symm
  | newline ht hu _ _ => exact congrArg some ((of_decide_eq_true ht).trans (of_decide_eq_true hu).symm)

end TokensAlike

theorem Annotation.kind_of_opensWith {kind : Token.Kind} (h : opensWith kind = true) :
    kind = .title ∨ kind = .accTitle ∨ kind = .accDescr := by
  cases kind <;> simp_all [opensWith]

def Reader.Blind (read : Reader) (kind : Token.Kind) : Prop :=
  ∀ t u : Token, t.Alike u → t.kind = kind → (read t).toOption = (read u).toOption

namespace Reader

variable {read : Reader} {kind : Token.Kind} {f : List Char → Option Value}

theorem blind_of_text (h : ∀ t : Token, t.kind = kind → (read t).toOption = f t.text.toList)
    (hr : ∀ cs ds, Token.Rebroken kind cs ds → f cs = f ds)
    (hf : ∀ cs, Token.Pads kind cs → f (cs ++ [' ']) = f cs) : Blind read kind := by
  intro t u htu hk
  rw [h t hk, h u (htu.kind.trans hk)]
  rcases htu.text with he | ⟨hp, he⟩ | hb
  · rw [he]
  · rw [he, hf _ (hk ▸ hp)]
  · exact hr _ _ (hk ▸ hb)

theorem blind_of_not_pads (h : ∀ t : Token, t.kind = kind → (read t).toOption = f t.text.toList)
    (hr : ∀ cs ds, ¬ Token.Rebroken kind cs ds) (hp : ∀ cs, ¬ Token.Pads kind cs) :
    Blind read kind :=
  blind_of_text h (fun cs ds hc ↦ absurd hc (hr cs ds)) fun cs hc ↦ absurd hc (hp cs)

theorem titleText_append (cs : List Char) :
    titleText ("title".toList ++ cs ++ [' ']) = titleText ("title".toList ++ cs) := by
  have h (ds : List Char) : titleText ("title".toList ++ ds) = trim ds :=
    congrArg trim (Text.dropBytes_append "title".toList ds)
  rw [List.append_assoc, h, h, Text.trim_append_blank (by decide)]

theorem afterColon_append (cs : List Char) : afterColon (cs ++ [' ']) = afterColon cs := by
  rw [afterColon, afterColon, List.dropWhile_append]
  split
  · rename_i h
    rw [List.isEmpty_iff.1 h]
    rfl
  · rename_i h
    obtain ⟨d, ds, hd⟩ := List.exists_cons_of_ne_nil (mt List.isEmpty_iff.2 h)
    rw [hd]
    exact Text.trim_append_blank (by decide) ds

theorem trimStart_pastWord {blanks : List Char} (hb : ∀ c ∈ blanks, isBlank c = true) {c : Char}
    (hc : isBlank c = false) (cs : List Char) :
    trimStart (dropBytes "accDescr".utf8ByteSize ("accDescr".toList ++ (blanks ++ c :: cs))) =
      c :: cs := by
  have hsize : "accDescr".utf8ByteSize = byteSize "accDescr".toList := rfl
  rw [hsize, Text.dropBytes_append, trimStart, List.dropWhile_append_of_pos hb,
    List.dropWhile_cons_of_neg (by simp [hc])]

theorem descriptionText_append {spaces : List Char} (hs : ∀ c ∈ spaces, isSpace c = true)
    (cs : List Char) :
    descriptionText ("accDescr".toList ++ (spaces ++ ([':'] ++ cs)) ++ [' ']) =
      descriptionText ("accDescr".toList ++ (spaces ++ ([':'] ++ cs))) := by
  have h (ds : List Char) : descriptionText ("accDescr".toList ++ (spaces ++ ([':'] ++ ds))) =
      afterColon ([':'] ++ ds) := by
    have hb : ∀ c ∈ spaces, isBlank c = true := fun c hc ↦ Pattern.isBlank_of_isSpace (hs c hc)
    rw [List.singleton_append, descriptionText, trimStart_pastWord hb (by decide)]
    rfl
  have happ : "accDescr".toList ++ (spaces ++ ([':'] ++ cs)) ++ [' '] =
      "accDescr".toList ++ (spaces ++ ([':'] ++ (cs ++ [' ']))) := by
    simp only [List.append_assoc]
  rw [happ, h, h, ← List.append_assoc, afterColon_append]

theorem descriptionText_block {blanks : List Char} (hb : ∀ c ∈ blanks, isBlank c = true)
    (cs : List Char) :
    descriptionText ("accDescr".toList ++ (blanks ++ '\x7b' :: cs)) =
      trimmedLines (Text.dropWhileEnd (· = '\x7d') (('\x7b' :: cs).dropWhile (· = '\x7b'))) := by
  rw [descriptionText, trimStart_pastWord hb (by decide)]
  rfl

theorem descriptionText_withReturns {blanks cs : List Char} (hb : ∀ c ∈ blanks, isBlank c = true)
    (hr : '\r' ∉ cs) :
    descriptionText ("accDescr".toList ++ (withReturns blanks ++ '\x7b' :: withReturns cs)) =
      descriptionText ("accDescr".toList ++ (blanks ++ '\x7b' :: cs)) := by
  have hb' : ∀ c ∈ withReturns blanks, isBlank c = true := by
    rw [← List.all_eq_true] at hb ⊢
    rw [Text.all_withReturns (by decide), hb]
  have hbrace : '\x7b' :: withReturns cs = withReturns ('\x7b' :: cs) := rfl
  have hmem : '\r' ∉ Text.dropWhileEnd (· = '\x7d') (('\x7b' :: cs).dropWhile (· = '\x7b')) := by
    intro h
    rw [Text.dropWhileEnd, List.mem_reverse] at h
    have h := List.mem_reverse.1 ((List.dropWhile_suffix _).subset h)
    have h : '\r' ∈ '\x7b' :: cs := (List.dropWhile_suffix _).subset h
    rcases List.mem_cons.1 h with h | h
    · exact absurd h (by decide)
    · exact hr h
  rw [descriptionText_block hb', descriptionText_block hb, hbrace,
    Text.dropWhile_withReturns (by decide), Text.dropWhileEnd_withReturns (by decide), trimmedLines,
    trimmedLines, Text.lines_withReturns hmem]

theorem Blind.of_eq {read' : Reader} (h : Blind read' kind)
    (he : ∀ t : Token, t.kind = kind → read t = read' t) : Blind read kind := by
  intro t u htu hk
  rw [he t hk, he u (htu.kind.trans hk)]
  exact h t u htu hk

theorem toOption_numberOf (t : Token) (cs : List Char) :
    ((numberOf t cs).map Value.number).toOption = (Binary64.ofText? cs).map .number := by
  unfold numberOf
  cases Binary64.ofText? cs <;> rfl

theorem blind_common_note (hk : Annotation.opensWith kind = true) : Blind common kind := by
  cases kind with
  | title =>
    refine blind_of_text (f := fun cs ↦ some (.ofChars (titleText cs)))
      (fun t ht ↦ by simp [common, ht, Except.toOption]) nofun fun cs hc ↦ ?_
    obtain ⟨text⟩ := hc
    rw [titleText_append]
  | accTitle =>
    refine blind_of_text (f := fun cs ↦ some (.ofChars (afterColon cs)))
      (fun t ht ↦ by simp [common, ht, Except.toOption]) nofun fun cs _ ↦ ?_
    rw [afterColon_append]
  | accDescr =>
    refine blind_of_text (f := fun cs ↦ some (.ofChars (descriptionText cs)))
      (fun t ht ↦ by simp [common, ht, Except.toOption]) (fun cs ds hr ↦ ?_) fun cs hc ↦ ?_
    · cases hr with
      | returns hb hr | feeds hb hr => rw [descriptionText_withReturns hb hr]
    · cases hc with
      | accDescr hs => rw [descriptionText_append hs]
  | _ => cases hk

theorem blind_note (h : ∀ t : Token, Annotation.opensWith t.kind = true → read t = common t)
    (hk : Annotation.opensWith kind = true) : Blind read kind :=
  (blind_common_note hk).of_eq fun t ht ↦ h t (ht ▸ hk)

theorem blind_common_string : Blind common .string :=
  blind_of_not_pads (f := fun cs ↦ some (.ofChars (unquoted cs)))
    (fun t ht ↦ by simp [common, ht, Except.toOption]) nofun nofun

theorem blind_common_number : Blind common .number :=
  blind_of_not_pads (f := fun cs ↦ (Binary64.ofText? cs).map .number)
    (fun t ht ↦ by simp only [common, ht, toOption_numberOf]) nofun nofun

end Reader

namespace Grammar

open Reader (Blind blind_of_text blind_of_not_pads)

theorem Sankey.reader_note {t : Token} (h : Annotation.opensWith t.kind = true) :
    Sankey.reader t = Reader.common t := by
  rcases Annotation.kind_of_opensWith h with h | h | h <;> simp [Sankey.reader, h]

theorem Sankey.blind_sankeyNode : Blind Sankey.reader .sankeyNode := by
  refine blind_of_text (f := fun cs ↦ some (.ofChars (Sankey.fieldText cs)))
    (fun t ht ↦ by simp [Sankey.reader, ht, Except.toOption]) nofun fun cs hc ↦ ?_
  have hbare {ds : List Char} (h : startsWith ['"'] ds = false) : Sankey.fieldText ds = trim ds := by
    rw [Sankey.fieldText, between?, Option.not_isSome_iff_eq_none.1 (Bool.eq_false_iff.1 h)]
    rfl
  cases hc with
  | sankeyNode h =>
    have h' : startsWith ['"'] (cs ++ [' ']) = false := by
      rw [Text.startsWith_append (by decide)]
      exact h
    rw [hbare h, hbare h', Text.trim_append_blank (by decide)]

theorem Sankey.blind_sankeyValue : Blind Sankey.reader .sankeyValue :=
  blind_of_not_pads
    (f := fun cs ↦
      (Binary64.ofText? (Text.dropWhileEnd (· = '"') (cs.dropWhile (· = '"')))).map .number)
    (fun t ht ↦ by simp only [Sankey.reader, ht, Reader.toOption_numberOf]) nofun nofun

theorem Timeline.reader_note {t : Token} (h : Annotation.opensWith t.kind = true) :
    Timeline.reader t = Reader.common t := by
  rcases Annotation.kind_of_opensWith h with h | h | h <;> simp [Timeline.reader, h]

theorem Timeline.blind_sectionTitle : Blind Timeline.reader .sectionTitle := by
  refine blind_of_text (f := fun cs ↦ some (.ofChars (trim (dropAll "section".toList cs))))
    (fun t ht ↦ by simp [Timeline.reader, ht, Except.toOption]) nofun fun cs _ ↦ ?_
  rw [Text.dropAll_append (by decide), Text.trim_append_blank (by decide)]

theorem Timeline.blind_periodTitle : Blind Timeline.reader .periodTitle := by
  refine blind_of_text (f := fun cs ↦ some (.ofChars (trim cs)))
    (fun t ht ↦ by simp [Timeline.reader, ht, Except.toOption]) nofun fun cs _ ↦ ?_
  rw [Text.trim_append_blank (by decide)]

theorem Timeline.blind_periodEvent : Blind Timeline.reader .periodEvent := by
  refine blind_of_text (f := fun cs ↦ some (.ofChars (trim (cs.dropWhile (· = ':')))))
    (fun t ht ↦ by simp [Timeline.reader, ht, Except.toOption]) nofun fun cs _ ↦ ?_
  rw [Text.dropWhile_append_cons (by decide), Text.trim_append_blank (by decide)]

theorem Architecture.reader_note {t : Token} (h : Annotation.opensWith t.kind = true) :
    Architecture.reader t = Reader.common t := by
  rcases Annotation.kind_of_opensWith h with h | h | h <;> simp [Architecture.reader, h]

theorem Architecture.blind_reader {kind : Token.Kind}
    (hk : kind ∈ [.archTextIcon, .archIcon, .archTitle, .identifier]) :
    Blind Architecture.reader kind := by
  simp only [List.mem_cons, List.not_mem_nil, or_false] at hk
  refine blind_of_not_pads
    (f := fun cs ↦ (Architecture.reader ⟨kind, String.ofList cs, default⟩).toOption) ?_ ?_ ?_
  · intro t ht
    rcases hk with rfl | rfl | rfl | rfl <;>
      simp [Architecture.reader, Reader.common, ht, Except.toOption]
  · rcases hk with rfl | rfl | rfl | rfl <;> exact nofun
  · rcases hk with rfl | rfl | rfl | rfl <;> exact nofun

end Grammar

end DiagramText
