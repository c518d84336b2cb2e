import DiagramText.Proofs.AcceptedLines
import DiagramText.Proofs.SankeyRecords

namespace DiagramText

open Text (after? isBlank isBreak startsWith)
open Pattern (IsFree Stopped commentMark isSpace isWordChar)

namespace Sankey

/-- A trimmed text on one line without a comma and a comment mark, and not in quotes. -/
def IsName (s : String) : Prop :=
  Text.trim s.toList = s.toList ∧ IsFree [','] s.toList ∧ s.toList.head? ≠ some '"'

instance (s : String) : Decidable (IsName s) :=
  instDecidableAnd

/-- The word, which no letter, digit, underscore or hyphen goes on with, begins the name. -/
def opensWord (word : String) (name : List Char) : Bool :=
  (after? word.toList name).any fun rest ↦ !rest.head?.any fun c ↦ isWordChar c || c = '-'

/-- `title` and a blank begin the name. -/
def opensTitle (name : List Char) : Bool :=
  (after? "title".toList name).any fun rest ↦ rest.head?.any isSpace

/-- The word and a colon, with or without blanks between them, begin the name. -/
def opensLabelled (word : String) (name : List Char) : Bool :=
  (after? word.toList name).any fun rest ↦ startsWith [':'] (rest.dropWhile isSpace)

/-- `accDescr` and a brace begin the name, and the brace is closed in it or in a later name. -/
def opensBlock (later : List (List Char)) (name : List Char) : Bool :=
  (after? "accDescr".toList name).any fun rest ↦
    (after? ['\x7b'] (rest.dropWhile isBlank)).any fun inner ↦
      (inner :: later).any fun cs ↦ '\x7d' ∈ cs

def isMisread (later : List (List Char)) (name : List Char) : Bool :=
  opensWord "sankey-beta" name || opensWord "sankey" name || opensLabelled "accDescr" name ||
    opensBlock later name || opensLabelled "accTitle" name || opensTitle name

def Closes (rest : List Char) (later : List (List Char)) : Prop :=
  '\x7d' ∈ rest ↔ ∃ cs ∈ later, '\x7d' ∈ cs

def areRead : List (List Char) → Bool
  | [] => true
  | name :: later => !isMisread later name && areRead later

end Sankey

namespace Pattern

variable {p q : Pattern} {cs : List Char}

theorem isSome_seq : (p.seq q cs).isSome = (p cs).any fun m ↦ (q m.2).isSome := by
  rw [seq]
  cases p cs with
  | none => rfl
  | some m => rw [Option.bind_some, Option.isSome_map, Option.any_some]

theorem isSome_whenRest {ok : List Char → Bool} :
    (p.whenRest ok cs).isSome = (p cs).any fun m ↦ ok m.2 := by
  rw [whenRest]
  cases p cs with
  | none => rfl
  | some m =>
    cases h : ok m.2 <;> simp [Option.filter_some, h]

theorem isSome_alt : (p.alt q cs).isSome = ((p cs).isSome || (q cs).isSome) := by
  rw [Pattern.alt]
  cases p cs <;> rfl

theorem any_literal {mark : List Char} (f : List Char × List Char → Bool) :
    (literal mark cs).any f = (after? mark cs).any fun rest ↦ f (mark, rest) := by
  rw [literal]
  cases after? mark cs <;> rfl

theorem isSome_freeText (stops cs : List Char) : (freeText stops cs).isSome = true := by
  induction cs with
  | nil => rfl
  | cons c cs ih =>
    rw [freeText]
    split
    · rfl
    · rw [Option.isSome_map, ih]

theorem isSome_through_singleton (z : Char) (cs : List Char) :
    (through [z] cs).isSome = decide (z ∈ cs) := by
  rw [through, Option.isSome_map]
  induction cs with
  | nil => rfl
  | cons c cs ih =>
    by_cases hc : z = c
    · simp [Text.cut?, after?, hc]
    · simp [Text.cut?, after?, hc, ih]

def Moves (p : Pattern) : Prop :=
  ∀ cs taken rest, p cs = some (taken, rest) → taken ≠ []

theorem moves_literal {mark : List Char} (h : mark ≠ []) : Moves (literal mark) :=
  fun _ _ _ hp ↦ (literal_eq_some_iff.1 hp).1 ▸ h

theorem Moves.seq (h : Moves p) (q : Pattern) : Moves (p.seq q) := by
  intro cs taken rest hp
  obtain ⟨a, mid, b, ha, -, rfl⟩ := seq_eq_some_iff.1 hp
  exact List.append_ne_nil_of_left_ne_nil (h cs a mid ha) b

theorem Moves.alt (h : Moves p) (h' : Moves q) : Moves (p.alt q) := by
  intro cs taken rest hp
  rw [Pattern.alt] at hp
  split at hp
  case h_1 r hr => exact h cs taken rest (hr.trans hp)
  case h_2 => exact h' cs taken rest hp

theorem Moves.whenRest (h : Moves p) (ok : List Char → Bool) : Moves (p.whenRest ok) :=
  fun cs taken rest hp ↦ h cs taken rest (Option.filter_eq_some_iff.1 hp).1

theorem isSome_labelled (word cs : List Char) :
    (labelled word cs).isSome =
      (after? word cs).any fun rest ↦ startsWith [':'] (rest.dropWhile isSpace) := by
  simp only [labelled, isSome_seq, any_literal, many, Option.any_some, isSome_freeText]
  congr

theorem isSome_accDescr (cs : List Char) :
    (accDescr cs).isSome =
      ((labelled "accDescr".toList cs).isSome ||
        (after? "accDescr".toList cs).any fun rest ↦
          (after? ['\x7b'] (rest.dropWhile isBlank)).any fun inner ↦ decide ('\x7d' ∈ inner)) := by
  simp only [accDescr, isSome_alt, isSome_seq, any_literal, many, Option.any_some,
    isSome_through_singleton]

theorem isSome_title (cs : List Char) :
    (title cs).isSome =
      (after? "title".toList cs).any fun rest ↦
        rest.head?.all (fun c ↦ isBreak c || isSpace c) || startsWith commentMark rest := by
  have hany (ok : List Char → Bool) (p : Pattern) :
      ((p.whenRest ok) cs).any (fun m ↦ (freeText [] m.2).isSome) = (p.whenRest ok cs).isSome := by
    cases p.whenRest ok cs with
    | none => rfl
    | some m => rw [Option.any_some, isSome_freeText]; rfl
  rw [title, isSome_seq, hany, isSome_whenRest, any_literal]

theorem IsFree.head_append {stops taken : List Char} {z : Char} (h : IsFree stops taken)
    (hz : z ∈ stops) (hb : isBreak z = false) (hm : z ∉ commentMark) (rest : List Char) :
    (∀ c ∈ (taken ++ z :: rest).head?, isBreak c = false) ∧
      startsWith commentMark (taken ++ z :: rest) = false := by
  cases taken with
  | nil =>
    refine ⟨by rintro c ⟨⟩; exact hb, ?_⟩
    rw [Text.startsWith_append hm]
    rfl
  | cons c taken =>
    refine ⟨by rintro c ⟨⟩; exact (h.1 c List.mem_cons_self).1, ?_⟩
    rw [startsWith, h.after?_commentMark (List.cons_ne_nil c taken) (by rintro c ⟨⟩; exact .inr hz)]
    rfl

theorem IsFree.of_suffix {stops cs rest : List Char} (h : IsFree stops cs) (hr : rest <:+ cs) :
    IsFree stops rest :=
  ⟨fun c hc ↦ h.1 c (hr.subset hc), fun hm ↦ h.2 (hm.trans hr.isInfix)⟩

end Pattern

theorem Shape.isSome_match? {s : Shape} (h : s.pattern.Moves) (cs : List Char) :
    (s.match? cs).isSome = (s.pattern cs).isSome := by
  rw [Shape.match?, Option.isSome_map, Pattern.nonempty]
  cases hp : s.pattern cs with
  | none => rfl
  | some m =>
    obtain ⟨taken, rest⟩ := m
    have hn : taken ≠ [] := h cs taken rest hp
    simp [Option.filter_some, hn]

namespace Sankey

variable {name rest : List Char} {later : List (List Char)}

def otherShapes : List Shape :=
  [.keyword .sankeyBeta, .keyword .sankey] ++ Shape.annotations

theorem isSome_opensWord (word : String) (hw : ',' ∉ word.toList) :
    (Pattern.keyword word.toList (name ++ ',' :: rest)).isSome = opensWord word name := by
  rw [Pattern.keyword, Pattern.isSome_whenRest, Pattern.any_literal, Text.after?_append hw,
    Option.any_map, opensWord]
  congr
  funext tail
  cases tail <;> rfl

theorem isSome_opensLabelled (word : String) (hw : ',' ∉ word.toList) :
    (Pattern.labelled word.toList (name ++ ',' :: rest)).isSome = opensLabelled word name := by
  rw [Pattern.isSome_labelled, Text.after?_append hw, Option.any_map, opensLabelled]
  congr
  funext tail
  rw [Text.dropWhile_append_cons rfl, Text.startsWith_append (by decide)]

theorem isSome_opensBlock (hr : Closes rest later) :
    ((after? "accDescr".toList (name ++ ',' :: rest)).any fun tail ↦
      (after? ['\x7b'] (tail.dropWhile isBlank)).any fun inner ↦ decide ('\x7d' ∈ inner)) =
        opensBlock later name := by
  rw [Text.after?_append (by decide), Option.any_map, opensBlock]
  congr
  funext tail
  rw [Text.dropWhile_append_cons rfl, Text.after?_append (by decide),
    Option.any_map]
  congr
  funext inner
  rw [Bool.eq_iff_iff]
  simp [show '\x7d' ∈ rest ↔ _ from hr]

theorem isSome_opensTitle (hf : IsFree [','] name) :
    (Pattern.title (name ++ ',' :: rest)).isSome = opensTitle name := by
  rw [Pattern.isSome_title, Text.after?_append (by decide), Option.any_map, opensTitle]
  cases ha : after? "title".toList name with
  | none => rfl
  | some tail =>
    have htail : tail <:+ name := ⟨_, (Text.after?_eq_some_iff.1 ha).symm⟩
    obtain ⟨hb, hm⟩ :=
      (hf.of_suffix htail).head_append (List.mem_singleton_self _) rfl (by decide) rest
    rw [Option.any_some, Option.any_some, hm, Bool.or_false]
    cases tail with
    | nil => rfl
    | cons c tail => simp [hb c rfl]

theorem moves_otherShapes : ∀ s ∈ otherShapes, s.pattern.Moves := by
  have hword (word : List Char) (hw : word ≠ []) : (Pattern.keyword word).Moves :=
    (Pattern.moves_literal hw).whenRest _
  have hlabelled (word : List Char) (hw : word ≠ []) : (Pattern.labelled word).Moves :=
    (Pattern.moves_literal hw).seq _
  simp only [otherShapes, Shape.annotations, List.forall_mem_append, List.forall_mem_cons]
  exact ⟨⟨hword _ (by decide), hword _ (by decide), by simp⟩,
    (hlabelled _ (by decide)).alt ((Pattern.moves_literal (by decide)).seq _),
    hlabelled _ (by decide), ((Pattern.moves_literal (by decide)).whenRest _).seq _, by simp⟩

/-- What is tried before names matches where the name is misread, and nowhere else. -/
theorem isSome_first?_otherShapes (hf : IsFree [','] name) (hr : Closes rest later) :
    (Shape.first? otherShapes (name ++ ',' :: rest)).isSome = isMisread later name := by
  have hdescr : (Pattern.accDescr (name ++ ',' :: rest)).isSome =
      (opensLabelled "accDescr" name || opensBlock later name) := by
    rw [Pattern.isSome_accDescr, isSome_opensLabelled "accDescr" (by decide), isSome_opensBlock hr]
  have hmatch : (Shape.first? otherShapes (name ++ ',' :: rest)).isSome =
      otherShapes.any fun s ↦ (s.pattern (name ++ ',' :: rest)).isSome := by
    rw [Bool.eq_iff_iff, Shape.first?, List.findSome?_isSome_iff, List.any_eq_true]
    refine exists_congr fun s ↦ and_congr_right fun hs ↦ ?_
    rw [Shape.isSome_match? (moves_otherShapes s hs)]
  rw [hmatch]
  simp only [otherShapes, Shape.annotations, Shape.keyword, Keyword.text, List.any_append,
    List.any_cons, List.any_nil, hdescr, isSome_opensTitle hf, Pattern.accTitle,
    isSome_opensWord "sankey-beta" (by decide), isSome_opensWord "sankey" (by decide),
    isSome_opensLabelled "accTitle" (by decide), Bool.or_false, isMisread, Bool.or_assoc]

theorem IsName.exists_head {s : String} (h : IsName s) (hn : s ≠ "") :
    ∃ c cs, s.toList = c :: cs ∧ isSpace c = false ∧ isBreak c = false ∧ c ≠ '"' := by
  obtain ⟨htrim, hfree, hquote⟩ := h
  obtain ⟨c, cs, hs⟩ := List.exists_cons_of_ne_nil (show s.toList ≠ [] by simpa using hn)
  have hblank : isBlank c = false := Text.head_of_trim htrim c (by rw [hs]; rfl)
  refine ⟨c, cs, hs, ?_, (hfree.1 c (hs ▸ List.mem_cons_self)).1, ?_⟩
  · by_contra hc
    rw [Pattern.isBlank_of_isSpace (Bool.not_eq_false _ ▸ hc)] at hblank
    cases hblank
  · rintro rfl
    exact hquote (by rw [hs]; rfl)

theorem sankeyValue_name {s : String} (h : IsName s) (hn : s ≠ "") :
    Pattern.sankeyValue (s.toList ++ ',' :: rest) = none := by
  rw [Option.eq_none_iff_forall_ne_some]
  rintro ⟨ds, tail⟩ hv
  obtain ⟨hp, hends⟩ := Option.filter_eq_some_iff.1 hv
  obtain ⟨c, cs, hs, -, -, hquote⟩ := h.exists_head hn
  have hdigits : Pattern.digits (s.toList ++ ',' :: rest) = some (ds, tail) := by
    have hunquoted : (Pattern.literal ['"']).seq (Pattern.digits.seq (Pattern.literal ['"']))
        (s.toList ++ ',' :: rest) = none := by
      simp [hs, Pattern.seq, Pattern.literal, after?, hquote.symm]
    rw [Pattern.alt, hunquoted] at hp
    split at hp
    case h_1 m hm => exact hm.trans hp
    case h_2 => cases hp
  have hcomma : ',' ∉ ds := Pattern.not_mem_of_digits (by decide) (by decide) hdigits
  obtain ⟨more, hmore, rfl⟩ : ∃ more, more <:+ s.toList ∧ tail = more ++ ',' :: rest := by
    rcases List.append_eq_append_iff.1 (Pattern.splits_digits _ _ _ hdigits) with
      ⟨as, rfl, htail⟩ | ⟨more, hmore, rfl⟩
    · cases as with
      | nil => exact ⟨[], List.nil_suffix, htail.symm⟩
      | cons a as =>
        obtain ⟨rfl, -⟩ := List.cons.inj htail
        exact absurd (List.mem_append_right _ List.mem_cons_self) hcomma
    · exact ⟨more, ⟨ds, hmore.symm⟩, rfl⟩
  -- Behind the blanks there is more of the name, or the comma.
  have hfree := h.2.1.of_suffix ((List.dropWhile_suffix isSpace).trans hmore)
  obtain ⟨hbreak, hmark⟩ := hfree.head_append (List.mem_singleton_self ',') rfl (by decide) rest
  have hends : Pattern.endsLine (more ++ ',' :: rest) = true := hends
  rw [Pattern.endsLine, Text.dropWhile_append_cons rfl, hmark, Bool.or_false] at hends
  cases hd : more.dropWhile isSpace with
  | nil =>
    rw [hd] at hends
    cases hends
  | cons d more' =>
    rw [hd] at hends hbreak
    have hb : isBreak d = true := hends
    rw [hbreak d rfl] at hb
    cases hb

theorem sankeyNode_name {s : String} (h : IsName s) (hn : s ≠ "") :
    Pattern.sankeyNode (s.toList ++ ',' :: rest) = some (s.toList, ',' :: rest) := by
  obtain ⟨c, cs, hs, -, -, hquote⟩ := h.exists_head hn
  have hplain : startsWith ['"'] (s.toList ++ ',' :: rest) = false := by
    rw [hs]
    simp [startsWith, after?, hquote.symm]
  rw [Pattern.sankeyNode, hplain, if_neg Bool.false_ne_true]
  refine Pattern.freeText_nonempty_run h.2.1 (by simp [hs]) ?_
  rintro c ⟨⟩
  exact .inr (List.mem_singleton_self _)

theorem next?_name {s : String} (h : IsName s) (hn : s ≠ "") :
    Kind.sankey.next? (s.toList ++ ',' :: rest) =
      (Shape.first? otherShapes (s.toList ++ ',' :: rest)).or
        (some ⟨.sankeyNode, s.toList, ',' :: rest⟩) := by
  have hvalue : (⟨.sankeyValue, Pattern.sankeyValue⟩ : Shape).match? (s.toList ++ ',' :: rest) =
      none := Shape.match?_of_none (sankeyValue_name h hn)
  have hnode : (⟨.sankeyNode, Pattern.sankeyNode⟩ : Shape).match? (s.toList ++ ',' :: rest) =
      some ⟨.sankeyNode, s.toList, ',' :: rest⟩ :=
    Shape.match?_eq_some_iff.2 ⟨rfl, sankeyNode_name h hn, by simpa using hn⟩
  have hrules : Kind.sankey.next? (s.toList ++ ',' :: rest) =
      Shape.first? Kind.sankey.shapes (s.toList ++ ',' :: rest) := by
    have hmark : after? commentMark (s.toList ++ ',' :: rest) = none :=
      h.2.1.after?_commentMark (by simpa using hn) (by rintro c ⟨⟩; exact .inr (by simp))
    obtain ⟨c, cs, hs, hspace, hbreak, -⟩ := h.exists_head hn
    rw [hs] at hmark ⊢
    exact Kind.next?_of_unmarked hspace hbreak hmark
  rw [hrules, Kind.shapes, Shape.first?, List.findSome?_append]
  refine congrArg _ ?_
  rw [← Shape.first?, Shape.first?_cons_of_none hvalue]
  exact Shape.first?_cons_of_some hnode

end Sankey

end DiagramText
