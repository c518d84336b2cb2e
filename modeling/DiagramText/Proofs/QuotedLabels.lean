import DiagramText.Proofs.Written

namespace DiagramText

open Text (between? isBreak)
open Pattern (isWordChar)

variable {cs rest : List Char}

/-- Nothing in the text closes a string, or breaks its line. -/
def IsQuotable (cs : List Char) : Prop :=
  ∀ c ∈ cs, c ≠ '"' ∧ isBreak c = false

-- The characters of the text are gone through, not all that there are.
instance (cs : List Char) : Decidable (IsQuotable cs) :=
  List.decidableBAll _ _

def NumberOver (rest : List Char) : Prop :=
  ∀ c ∈ rest.head?, isWordChar c = false ∧ c ≠ '.'

theorem numberOver_cons {c : Char} (hw : isWordChar c = false) (hp : c ≠ '.') (cs : List Char) :
    NumberOver (c :: cs) := by
  rintro d ⟨⟩
  exact ⟨hw, hp⟩

theorem numberOver_of_lineOver (h : Kind.LineOver rest) : NumberOver rest := by
  rcases h with rfl | ⟨rest, rfl⟩
  · nofun
  · exact numberOver_cons (by decide) (by decide) rest

theorem isAlpha_of_isDigit {c : Char} (h : c.isDigit = true) : c.isAlpha = false := by
  change ('0'.val ≤ c.val && c.val ≤ '9'.val) = true at h
  change (decide ('A'.val ≤ c.val ∧ c.val ≤ 'Z'.val) ||
    ('a'.val ≤ c.val && c.val ≤ 'z'.val)) = false
  simp only [Bool.and_eq_true, decide_eq_true_eq, UInt32.le_iff_toNat_le] at h
  simp only [Bool.or_eq_false_iff, Bool.and_eq_false_iff, decide_eq_false_iff_not,
    UInt32.le_iff_toNat_le]
  simp at h ⊢
  omega

theorem isDigit_of_not_isWordChar {c : Char} (h : isWordChar c = false) : c.isDigit = false := by
  rw [isWordChar, Char.isAlphanum, Bool.or_eq_false_iff, Bool.or_eq_false_iff] at h
  exact h.1.2

theorem Numeral.number_append (h : Numeral cs) (hr : NumberOver rest) :
    Pattern.number (cs ++ rest) = some (cs, rest) := by
  have hdigits : Pattern.digits (cs ++ rest) = some (cs, rest) :=
    h.digits_append fun c hc ↦ ⟨isDigit_of_not_isWordChar (hr c hc).1, (hr c hc).2⟩
  have hover : (rest.head?.any fun c ↦ isWordChar c || c = '.') = false := by
    cases rest with
    | nil => rfl
    | cons c rest =>
      obtain ⟨hw, hp⟩ := hr c rfl
      simp [hw, hp]
  simp only [Pattern.number, Pattern.whenRest, hdigits, Option.filter_some, hover, Bool.not_false,
    if_true]

theorem IsQuotable.string_append (h : IsQuotable cs) (rest : List Char) :
    Pattern.string ('"' :: (cs ++ '"' :: rest)) = some ('"' :: (cs ++ ['"']), rest) := by
  have hinner : Pattern.many (fun c ↦ !(c = '"' || isBreak c)) (cs ++ '"' :: rest) =
      some (cs, '"' :: rest) := by
    refine Pattern.many_run (fun c hc ↦ ?_) (by rintro c ⟨⟩; rfl)
    simp [h c hc]
  have hliteral (cs : List Char) : Pattern.literal ['"'] ('"' :: cs) = some (['"'], cs) := rfl
  simp only [Pattern.string, Pattern.alt, Pattern.quoted, Pattern.seq, hliteral, Option.bind_some,
    hinner, Option.map_some]
  rfl

namespace Kind

variable {k : Kind}

theorem exists_shapes_of_measured (hk : k ∈ [.pie, .packet]) :
    ∃ words more, k.shapes =
        words ++ ⟨.number, Pattern.number⟩ :: ⟨.string, Pattern.string⟩ :: more ∧
      ∀ c cs, c.isAlpha = false → Shape.first? words (c :: cs) = none := by
  have hne {c a : Char} (ha : a.isAlpha = true) (hc : c.isAlpha = false) : a ≠ c :=
    fun h ↦ Bool.false_ne_true (hc.symm.trans (h ▸ ha))
  have hwords {v w : Keyword} {a b : Char} {as bs : List Char} (hv : v.text.toList = a :: as)
      (hw : w.text.toList = b :: bs) (ha : a.isAlpha = true) (hb : b.isAlpha = true) (c : Char)
      (cs : List Char) (hc : c.isAlpha = false) :
      Shape.first? (.keyword v :: .keyword w :: Shape.annotations) (c :: cs) = none := by
    rw [Shape.first?_cons_of_none (Shape.match?_keyword_of_head hv (hne ha hc) cs),
      Shape.first?_cons_of_none (Shape.match?_keyword_of_head hw (hne hb hc) cs)]
    exact Shape.first?_annotations_of_head (hne rfl hc).symm (hne rfl hc).symm cs
  simp only [List.mem_cons, List.not_mem_nil, or_false] at hk
  rcases hk with rfl | rfl
  · exact ⟨_, _, rfl, hwords (v := .pie) (w := .showData) rfl rfl rfl rfl⟩
  · exact ⟨_, _, rfl, hwords (v := .packetBeta) (w := .packet) rfl rfl rfl rfl⟩

theorem next?_number (hk : k ∈ [.pie, .packet]) (h : Numeral cs) (hr : NumberOver rest) :
    k.next? (cs ++ rest) = some ⟨.number, cs, rest⟩ := by
  have hpattern := h.number_append hr
  obtain ⟨words, more, hshapes, hwords⟩ := exists_shapes_of_measured hk
  obtain ⟨d, ds, rfl, hd⟩ := h.exists_cons
  rw [List.cons_append, next?_of_digit hd, hshapes,
    Shape.first?_append_of_none (hwords _ _ (isAlpha_of_isDigit hd))]
  exact Shape.first?_cons_of_some (Shape.match?_eq_some_iff.2 ⟨rfl, hpattern, by simp⟩)

theorem next?_string (hk : k ∈ [.pie, .packet]) (h : IsQuotable cs) (rest : List Char) :
    k.next? ('"' :: (cs ++ '"' :: rest)) = some ⟨.string, '"' :: (cs ++ ['"']), rest⟩ := by
  obtain ⟨words, more, hshapes, hwords⟩ := exists_shapes_of_measured hk
  rw [next?_of_solid rfl rfl (by decide), hshapes,
    Shape.first?_append_of_none (hwords _ _ rfl),
    Shape.first?_cons_of_none (Shape.match?_of_none rfl)]
  exact Shape.first?_cons_of_some
    (Shape.match?_eq_some_iff.2 ⟨rfl, h.string_append rest, by simp⟩)

end Kind

namespace Reader

theorem common_number {x : Binary64} (h : Binary64.ofText? cs = some x) :
    common (.unplaced .number cs) = .ok (.number x) := by
  simp [common, Token.unplaced, numberOf, h, Except.map]

theorem common_string (cs : List Char) :
    common (.unplaced .string ('"' :: (cs ++ ['"']))) = .ok (.text (String.ofList cs)) := by
  have hinner : between? ['"'] ['"'] ('"' :: (cs ++ ['"'])) = some cs :=
    Text.between?_eq ['"'] cs ['"']
  simp [common, Token.unplaced, unquoted, hinner, Value.ofChars]

end Reader

end DiagramText
