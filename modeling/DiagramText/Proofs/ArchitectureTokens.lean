import DiagramText.Proofs.Written

namespace DiagramText

open Text (after? isBlank isBreak)
open Pattern (isSpace isWordChar)

namespace Pattern

variable {c : Char} {word id rest cs : List Char}

theorem ne_of_isWordChar {d : Char} (hc : isWordChar c = true) (hd : isWordChar d = false) :
    c ≠ d := by
  rintro rfl
  rw [hc] at hd
  cases hd

theorem toNat_of_isWordChar (h : isWordChar c = true) : 47 < c.toNat ∧ c.toNat < 128 := by
  change (decide ('A'.val ≤ c.val ∧ c.val ≤ 'Z'.val) || ('a'.val ≤ c.val && c.val ≤ 'z'.val) ||
    ('0'.val ≤ c.val && c.val ≤ '9'.val) || c = '_') = true at h
  simp only [Bool.or_eq_true, Bool.and_eq_true, decide_eq_true_eq, UInt32.le_iff_toNat_le] at h
  have hc : c.val.toNat = c.toNat := rfl
  rcases h with ((⟨hlo, hhi⟩ | ⟨hlo, hhi⟩) | ⟨hlo, hhi⟩) | rfl
  · simp at hlo hhi; omega
  · simp at hlo hhi; omega
  · simp at hlo hhi; omega
  · decide

theorem toNat_of_isBlank (h : isBlank c = true) : c.toNat ≤ 32 ∨ 128 ≤ c.toNat := by
  simp only [isBlank, Bool.or_eq_true, Bool.and_eq_true, decide_eq_true_eq, Char.le_def,
    UInt32.le_iff_toNat_le] at h
  have hc : c.val.toNat = c.toNat := rfl
  rcases h with (((((((((rfl | ⟨hlo, hhi⟩) | rfl) | rfl) | rfl) | ⟨hlo, hhi⟩) | rfl) | rfl) | rfl) |
    rfl) | rfl
  case inl.inl.inl.inl.inl.inl.inl.inl.inl.inr => simp at hlo hhi; omega
  case inl.inl.inl.inl.inl.inr => simp at hlo hhi; omega
  all_goals decide

theorem isBlank_of_isWordChar (h : isWordChar c = true) : isBlank c = false := by
  by_contra hb
  have hword := toNat_of_isWordChar h
  have hblank := toNat_of_isBlank (Bool.not_eq_false _ ▸ hb)
  omega

theorem isSpace_of_isWordChar (h : isWordChar c = true) : isSpace c = false := by
  have hs := isBlank_of_isWordChar h
  by_contra hc
  rw [isBlank_of_isSpace (Bool.not_eq_false _ ▸ hc)] at hs
  cases hs

theorem isBreak_of_isWordChar (h : isWordChar c = true) : isBreak c = false := by
  have hn : c ≠ '\n' := ne_of_isWordChar h (by decide)
  have hr : c ≠ '\r' := ne_of_isWordChar h (by decide)
  simp [isBreak, hn, hr]

/-- The text does not go on with a letter, a digit or an underscore. -/
def Bounded (rest : List Char) : Prop :=
  ∀ c ∈ rest.head?, isWordChar c = false

theorem exists_head_of_after? (hw : ∀ c ∈ word, isWordChar c = true)
    (hid : ∀ c ∈ id, isWordChar c = true) (hr : Bounded rest) (hne : id ≠ word)
    (h : after? word (id ++ rest) = some cs) : ∃ c r, cs = c :: r ∧ isWordChar c = true := by
  have hstop : rest.takeWhile isWordChar = [] := by
    cases rest with
    | nil => rfl
    | cons c rest => exact List.takeWhile_cons_of_neg (by simp [hr c rfl])
  have htake := congrArg (List.takeWhile isWordChar) (Text.after?_eq_some_iff.1 h)
  rw [List.takeWhile_append_of_pos hid, List.takeWhile_append_of_pos hw, hstop,
    List.append_nil] at htake
  cases cs with
  | nil => exact absurd (htake.trans (List.append_nil word)) hne
  | cons c r =>
    refine ⟨c, r, rfl, ?_⟩
    by_contra hc
    rw [List.takeWhile_cons_of_neg hc, List.append_nil] at htake
    exact hne htake

theorem keyword_of_id (hw : ∀ c ∈ word, isWordChar c = true) (hid : ∀ c ∈ id, isWordChar c = true)
    (hr : Bounded rest) (hne : id ≠ word) : keyword word (id ++ rest) = none := by
  rw [keyword, whenRest, literal]
  cases ha : after? word (id ++ rest) with
  | none => rfl
  | some cs =>
    obtain ⟨c, r, rfl, hc⟩ := exists_head_of_after? hw hid hr hne ha
    simp [Option.filter_some, hc]

theorem keyword_hyphen_of_id (tail : List Char) (hw : ∀ c ∈ word, isWordChar c = true)
    (hid : ∀ c ∈ id, isWordChar c = true) (hr : Bounded rest) (hne : id ≠ word) :
    keyword (word ++ '-' :: tail) (id ++ rest) = none := by
  rw [keyword, whenRest, literal]
  cases ha : after? (word ++ '-' :: tail) (id ++ rest) with
  | none => rfl
  | some cs =>
    have hword : after? word (id ++ rest) = some ('-' :: (tail ++ cs)) := by
      rw [Text.after?_eq_some_iff] at ha ⊢
      rw [ha, List.append_assoc, List.cons_append]
    obtain ⟨c, r, he, hc⟩ := exists_head_of_after? hw hid hr hne hword
    exact absurd (List.cons.inj he).1.symm (ne_of_isWordChar hc (by decide))

theorem marked_of_id {p : Char → Bool} {mark : Char} (hp : ∀ c, isWordChar c = true → p c = false)
    (hm : isWordChar mark = false) (q : Pattern) (hw : ∀ c ∈ word, isWordChar c = true)
    (hid : ∀ c ∈ id, isWordChar c = true) (hr : Bounded rest) (hne : id ≠ word) :
    (literal word).seq ((many p).seq ((literal [mark]).seq q)) (id ++ rest) = none := by
  rw [seq, literal]
  cases ha : after? word (id ++ rest) with
  | none => rfl
  | some cs =>
    obtain ⟨c, r, rfl, hc⟩ := exists_head_of_after? hw hid hr hne ha
    have hmark : mark ≠ c := (ne_of_isWordChar hc hm).symm
    simp [seq, many, literal, after?, hp c hc, hmark]

theorem labelled_of_id (hw : ∀ c ∈ word, isWordChar c = true) (hid : ∀ c ∈ id, isWordChar c = true)
    (hr : Bounded rest) (hne : id ≠ word) : labelled word (id ++ rest) = none :=
  marked_of_id (fun _ ↦ isSpace_of_isWordChar) rfl _ hw hid hr hne

theorem accDescr_of_id (hid : ∀ c ∈ id, isWordChar c = true) (hr : Bounded rest)
    (hne : id ≠ "accDescr".toList) : accDescr (id ++ rest) = none := by
  have hword : ∀ c ∈ "accDescr".toList, isWordChar c = true := List.all_eq_true.1 rfl
  rw [accDescr, alt, labelled_of_id hword hid hr hne]
  exact marked_of_id (fun _ ↦ isBlank_of_isWordChar) rfl _ hword hid hr hne

theorem title_of_id (hid : ∀ c ∈ id, isWordChar c = true) (hr : Bounded rest)
    (hne : id ≠ "title".toList) : title (id ++ rest) = none := by
  have hword : ∀ c ∈ "title".toList, isWordChar c = true := List.all_eq_true.1 rfl
  simp only [title, seq, whenRest, literal]
  cases ha : after? "title".toList (id ++ rest) with
  | none => rfl
  | some cs =>
    obtain ⟨c, r, rfl, hc⟩ := exists_head_of_after? hword hid hr hne ha
    have hmark : '%' ≠ c := (ne_of_isWordChar hc (by decide)).symm
    simp [Option.filter_some, Text.startsWith, commentMark, after?, isSpace_of_isWordChar hc,
      isBreak_of_isWordChar hc, hmark]

theorem enclosed_run {opening closing inner rest : List Char} {p : Char → Bool} (hn : inner ≠ [])
    (hi : ∀ c ∈ inner, p c = true) (hc : ∀ c ∈ closing.head?, p c = false) (hne : closing ≠ []) :
    enclosed opening p closing (opening ++ (inner ++ (closing ++ rest))) =
      some (opening ++ (inner ++ closing), rest) := by
  have hstop : ∀ c ∈ (closing ++ rest).head?, p c = false := by
    rwa [List.head?_append_of_ne_nil _ hne]
  have hopen : after? opening (opening ++ (inner ++ (closing ++ rest))) =
      some (inner ++ (closing ++ rest)) := Text.after?_eq_some_iff.2 rfl
  have hclose : after? closing (closing ++ rest) = some rest := Text.after?_eq_some_iff.2 rfl
  simp [enclosed, seq, literal, hopen, hclose, many1_run hi hn hstop]

end Pattern

namespace Architecture

/-- The words that are read otherwise than as ids. -/
def reserved : List String :=
  ["architecture", "group", "service", "junction", "in", "title", "accTitle", "accDescr"]

/-- A letter or an underscore, followed by letters, digits and underscores. -/
def IsId (s : String) : Prop :=
  s.toList.head?.any (fun c ↦ c.isAlpha || c = '_') = true ∧
    (∀ c ∈ s.toList, isWordChar c = true) ∧ s ∉ reserved

def IsIcon (s : String) : Prop :=
  s ≠ "" ∧ ∀ c ∈ s.toList, isWordChar c = true ∨ c = ':' ∨ c = '-'

/-- A trimmed text on one line in which nothing closes it. -/
def IsLabel (closing : Char) (s : String) : Prop :=
  s ≠ "" ∧ Text.trim s.toList = s.toList ∧ ∀ c ∈ s.toList, isBreak c = false ∧ c ≠ closing

-- The characters of the text are gone through, not all that there are.
instance (s : String) : Decidable (IsId s) :=
  haveI : Decidable (∀ c ∈ s.toList, isWordChar c = true) := List.decidableBAll _ _
  instDecidableAnd

instance (s : String) : Decidable (IsIcon s) :=
  haveI : Decidable (∀ c ∈ s.toList, isWordChar c = true ∨ c = ':' ∨ c = '-') :=
    List.decidableBAll _ _
  instDecidableAnd

instance (closing : Char) (s : String) : Decidable (IsLabel closing s) :=
  haveI : Decidable (∀ c ∈ s.toList, isBreak c = false ∧ c ≠ closing) := List.decidableBAll _ _
  instDecidableAnd

end Architecture

namespace Kind

open Architecture (IsId IsIcon IsLabel)
open Pattern (Bounded)

variable {s : String} {rest : List Char}

theorem architecture_next?_word {w : Keyword} (hw : w ∈ [.group, .service, .junction, .in])
    (rest : List Char) :
    architecture.next? (w.text.toList ++ ' ' :: rest) =
      some ⟨.keyword w, w.text.toList, ' ' :: rest⟩ := by
  simp only [List.mem_cons, List.not_mem_nil, or_false] at hw
  rcases hw with rfl | rfl | rfl | rfl <;> rfl

def architectureWords : List Shape :=
  [.keyword .architectureBeta, .keyword .architecture, .keyword .group, .keyword .service,
    .keyword .junction, .keyword .in] ++ Shape.annotations

def architectureMarks : List Shape :=
  [⟨.archTextIcon, Pattern.archTextIcon⟩, ⟨.archIcon, Pattern.archIcon⟩,
    ⟨.archTitle, Pattern.archTitle⟩, ⟨.identifier, Pattern.identifier⟩, .symbol .groupModifier,
    .symbol .doubleMinus, .symbol .minus, .symbol .colon, .symbol .leftAngle, .symbol .rightAngle]

theorem architecture_next?_of_marks {c : Char} {cs : List Char} (hs : isSpace c = false)
    (hb : isBreak c = false) (hc : c ≠ '%')
    (hw : Shape.first? architectureWords (c :: cs) = none) :
    architecture.next? (c :: cs) = Shape.first? architectureMarks (c :: cs) := by
  have hshapes : architecture.shapes = architectureWords ++ architectureMarks := rfl
  rw [next?_of_solid hs hb hc, hshapes, Shape.first?_append_of_none hw]

theorem first?_words_of_id (h : IsId s) (hr : Bounded rest) :
    Shape.first? architectureWords (s.toList ++ rest) = none := by
  obtain ⟨-, hid, hfree⟩ := h
  have hne (w : String) (hw : w ∈ Architecture.reserved) : s.toList ≠ w.toList :=
    fun he ↦ hfree (String.toList_inj.1 he ▸ hw)
  have hkeyword (w : Keyword) (hw : w.text ∈ Architecture.reserved)
      (hword : w.text.toList.all isWordChar = true) :
      (Shape.keyword w).match? (s.toList ++ rest) = none :=
    Shape.match?_of_none (Pattern.keyword_of_id (List.all_eq_true.1 hword) hid hr (hne _ hw))
  have hbeta : Pattern.keyword ("architecture".toList ++ '-' :: "beta".toList) (s.toList ++ rest) =
      none :=
    Pattern.keyword_hyphen_of_id _ (List.all_eq_true.1 rfl) hid hr
      (hne "architecture" (by decide))
  rw [Shape.first?, List.findSome?_eq_none_iff]
  simp only [architectureWords, Shape.annotations, List.forall_mem_append, List.forall_mem_cons]
  refine ⟨⟨Shape.match?_of_none hbeta, hkeyword _ (by decide) rfl,
    hkeyword _ (by decide) rfl, hkeyword _ (by decide) rfl, hkeyword _ (by decide) rfl,
    hkeyword _ (by decide) rfl, by simp⟩,
    Shape.match?_of_none ?_, Shape.match?_of_none ?_, Shape.match?_of_none ?_, by simp⟩
  · exact Pattern.accDescr_of_id hid hr (hne "accDescr" (by decide))
  · exact Pattern.labelled_of_id (List.all_eq_true.1 rfl) hid hr (hne "accTitle" (by decide))
  · exact Pattern.title_of_id hid hr (hne "title" (by decide))

theorem architecture_next?_id (h : IsId s) (hr : Bounded rest) :
    architecture.next? (s.toList ++ rest) = some ⟨.identifier, s.toList, rest⟩ := by
  have hwords := first?_words_of_id h hr
  obtain ⟨hhead, hid, -⟩ := h
  obtain ⟨c, cs, hs⟩ : ∃ c cs, s.toList = c :: cs := by
    cases he : s.toList with
    | nil => simp [he] at hhead
    | cons c cs => exact ⟨c, cs, rfl⟩
  rw [hs] at hhead hid hwords ⊢
  have hc : isWordChar c = true := hid c List.mem_cons_self
  have hcs : ∀ d ∈ cs, isWordChar d = true := fun d hd ↦ hid d (List.mem_cons_of_mem c hd)
  have hparen : '(' ≠ c := (Pattern.ne_of_isWordChar hc (by decide)).symm
  have hbracket : '[' ≠ c := (Pattern.ne_of_isWordChar hc (by decide)).symm
  have hpattern : Pattern.identifier (c :: cs ++ rest) = some (c :: cs, rest) := by
    have hhead : (c.isAlpha || decide (c = '_')) = true := hhead
    simp only [List.cons_append, Pattern.identifier, Pattern.seq, Pattern.one, hhead, if_true,
      Option.bind_some, Pattern.many_run hcs hr]
    rfl
  rw [List.cons_append] at hwords hpattern ⊢
  rw [architecture_next?_of_marks (Pattern.isSpace_of_isWordChar hc)
    (Pattern.isBreak_of_isWordChar hc) (Pattern.ne_of_isWordChar hc (by decide)) hwords,
    architectureMarks, Shape.first?_cons_of_none, Shape.first?_cons_of_none,
    Shape.first?_cons_of_none]
  · exact Shape.first?_cons_of_some (Shape.match?_eq_some_iff.2 ⟨rfl, hpattern, by simp⟩)
  all_goals
    refine Shape.match?_of_none ?_
    simp [Pattern.archTitle, Pattern.archIcon, Pattern.archTextIcon, Pattern.enclosed, Pattern.seq,
      Pattern.literal, after?, hparen, hbracket]

theorem enclosed_label {opening closing : List Char} {mark : Char} (h : IsLabel mark s)
    (hc : closing.head? = some mark) (rest : List Char) :
    Pattern.enclosed opening (fun c ↦ !(c = mark || isBreak c)) closing
        (opening ++ (s.toList ++ (closing ++ rest))) =
      some (opening ++ (s.toList ++ closing), rest) := by
  obtain ⟨hn, -, hchars⟩ := h
  refine Pattern.enclosed_run (by simpa using hn) ?_ ?_ ?_
  · intro c hm
    simp [hchars c hm]
  · simp [hc]
  · rintro rfl
    cases hc

theorem architecture_next?_textIcon (h : IsLabel '"' s) (rest : List Char) :
    architecture.next? (['(', '"'] ++ (s.toList ++ (['"', ')'] ++ rest))) =
      some ⟨.archTextIcon, ['(', '"'] ++ (s.toList ++ ['"', ')']), rest⟩ := by
  have hpattern : Pattern.archTextIcon (['(', '"'] ++ (s.toList ++ (['"', ')'] ++ rest))) =
      some (['(', '"'] ++ (s.toList ++ ['"', ')']), rest) := enclosed_label h rfl rest
  rw [List.cons_append] at hpattern ⊢
  rw [architecture_next?_of_marks rfl rfl (by decide) rfl]
  exact Shape.first?_cons_of_some (Shape.match?_eq_some_iff.2 ⟨rfl, hpattern, by simp⟩)

theorem architecture_next?_icon (h : IsIcon s) (rest : List Char) :
    architecture.next? (['('] ++ (s.toList ++ ([')'] ++ rest))) =
      some ⟨.archIcon, ['('] ++ (s.toList ++ [')']), rest⟩ := by
  obtain ⟨hn, hchars⟩ := h
  have hinner : ∀ c ∈ s.toList, (isWordChar c || decide (c = ':') || decide (c = '-')) = true := by
    intro c hc
    simpa [or_assoc] using hchars c hc
  have hpattern : Pattern.archIcon (['('] ++ (s.toList ++ ([')'] ++ rest))) =
      some (['('] ++ (s.toList ++ [')']), rest) :=
    Pattern.enclosed_run (by simpa using hn) hinner (by simp; decide) (by simp)
  have htext : Pattern.archTextIcon (['('] ++ (s.toList ++ ([')'] ++ rest))) = none := by
    obtain ⟨c, cs, hs⟩ := List.exists_cons_of_ne_nil (show s.toList ≠ [] by simpa using hn)
    have hquote : '"' ≠ c := by
      rintro rfl
      exact absurd (hchars '"' (hs ▸ List.mem_cons_self)) (by decide)
    simp [hs, Pattern.archTextIcon, Pattern.enclosed, Pattern.seq, Pattern.literal, after?, hquote]
  rw [List.cons_append] at hpattern htext ⊢
  rw [architecture_next?_of_marks rfl rfl (by decide) rfl, architectureMarks,
    Shape.first?_cons_of_none (Shape.match?_of_none htext)]
  exact Shape.first?_cons_of_some (Shape.match?_eq_some_iff.2 ⟨rfl, hpattern, by simp⟩)

theorem architecture_next?_title (h : IsLabel ']' s) (rest : List Char) :
    architecture.next? (['['] ++ (s.toList ++ ([']'] ++ rest))) =
      some ⟨.archTitle, ['['] ++ (s.toList ++ [']']), rest⟩ := by
  have hpattern : Pattern.archTitle (['['] ++ (s.toList ++ ([']'] ++ rest))) =
      some (['['] ++ (s.toList ++ [']']), rest) := enclosed_label h rfl rest
  rw [List.cons_append] at hpattern ⊢
  rw [architecture_next?_of_marks rfl rfl (by decide) rfl, architectureMarks,
    Shape.first?_cons_of_none (Shape.match?_of_none rfl),
    Shape.first?_cons_of_none (Shape.match?_of_none rfl)]
  exact Shape.first?_cons_of_some (Shape.match?_eq_some_iff.2 ⟨rfl, hpattern, by simp⟩)

theorem architecture_next?_symbol {y : Symbol}
    (hy : y ∈ [.groupModifier, .doubleMinus, .colon, .leftAngle, .rightAngle]) (rest : List Char) :
    architecture.next? (y.text.toList ++ rest) = some ⟨.symbol y, y.text.toList, rest⟩ := by
  simp only [List.mem_cons, List.not_mem_nil, or_false] at hy
  rcases hy with rfl | rfl | rfl | rfl | rfl <;> rfl

theorem architecture_next?_minus (hr : rest.head? ≠ some '-') :
    architecture.next? ('-' :: rest) = some ⟨.symbol .minus, ['-'], rest⟩ := by
  have hdouble : (Shape.symbol .doubleMinus).match? ('-' :: rest) = none := by
    refine Shape.match?_of_none ?_
    cases rest with
    | nil => rfl
    | cons c cs =>
      have hc : '-' ≠ c := by simpa [eq_comm] using hr
      simp [Shape.symbol, Symbol.text, Pattern.literal, after?, hc]
  rw [architecture_next?_of_marks rfl rfl (by decide) rfl, architectureMarks,
    Shape.first?_cons_of_none (Shape.match?_of_none rfl),
    Shape.first?_cons_of_none (Shape.match?_of_none rfl),
    Shape.first?_cons_of_none (Shape.match?_of_none rfl),
    Shape.first?_cons_of_none (Shape.match?_of_none rfl),
    Shape.first?_cons_of_none (Shape.match?_of_none rfl), Shape.first?_cons_of_none hdouble]
  rfl

end Kind

end DiagramText
