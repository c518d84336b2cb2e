import DiagramText.Layout.Wrapping
import Mathlib.Algebra.Ring.Parity
import Mathlib.Data.List.DropRight

namespace DiagramText

namespace Unicode.Boundaries

variable {σ : Type} {b : Boundaries σ}

@[simp] theorem cut_nil (s : σ) : b.cut s [] = ([], []) := rfl

theorem cut_of_joins {s : σ} {c : Char} {cs : List Char} (h : b.joins s c cs = true) :
    b.cut s (c :: cs) = (c :: (b.cut (b.next s c) cs).1, (b.cut (b.next s c) cs).2) := by
  rw [cut, h]
  rfl

theorem cut_of_not_joins {s : σ} {c : Char} {cs : List Char} (h : b.joins s c cs = false) :
    b.cut s (c :: cs) = ([], (c :: (b.cut (b.start c) cs).1) :: (b.cut (b.start c) cs).2) := by
  rw [cut, h]
  rfl

variable (b) in
/-- Whether a piece goes on does not depend on the text after the next character. -/
def LooksNoFurther : Prop :=
  ∀ s c rest rest', b.joins s c rest = b.joins s c rest'

/-- The rest of a piece is read in the same way where the text ends with it, and the pieces after it
are single pieces. -/
theorem LooksNoFurther.cut_cut (hb : b.LooksNoFurther) (s : σ) (cs : List Char) :
    b.cut s (b.cut s cs).1 = ((b.cut s cs).1, []) ∧ ∀ p ∈ (b.cut s cs).2, b.pieces p = [p] := by
  induction cs generalizing s with
  | nil => exact ⟨rfl, by simp [cut]⟩
  | cons c cs ih =>
    cases hj : b.joins s c cs with
    | true =>
      obtain ⟨hp, hm⟩ := ih (b.next s c)
      rw [cut_of_joins hj]
      refine ⟨?_, hm⟩
      rw [cut_of_joins ((hb s c _ cs).trans hj), hp]
    | false =>
      obtain ⟨hp, hm⟩ := ih (b.start c)
      rw [cut_of_not_joins hj]
      refine ⟨rfl, List.forall_mem_cons.2 ⟨?_, hm⟩⟩
      rw [pieces, hp]

theorem LooksNoFurther.pieces_of_mem_pieces (hb : b.LooksNoFurther) {cs p : List Char}
    (hp : p ∈ b.pieces cs) : b.pieces p = [p] := by
  cases cs with
  | nil => simp [pieces] at hp
  | cons c cs =>
    obtain ⟨hc, hm⟩ := hb.cut_cut (b.start c) cs
    rcases List.mem_cons.1 hp with rfl | hp
    · rw [pieces, hc]
    · exact hm p hp

end Unicode.Boundaries

namespace Segmenter

/-- The visible characters of a text are visible characters by themselves. -/
def KeepsPieces (seg : Segmenter) : Prop :=
  ∀ s, ∀ g ∈ seg.graphemes s, seg.graphemes g = [g]

theorem keepsPieces_unicode : unicode.KeepsPieces := by
  intro s g hg
  obtain ⟨p, hp, rfl⟩ := List.mem_map.1 hg
  have hb : Unicode.clusterBoundaries.LooksNoFurther := fun _ _ _ _ ↦ rfl
  have hc : Unicode.clusters p = [p] := hb.pieces_of_mem_pieces hp
  simp [unicode, hc]

theorem keepsPieces_plain : plain.KeepsPieces := by
  intro s g hg
  obtain ⟨p, hp, rfl⟩ := List.mem_map.1 hg
  obtain ⟨c, -, rfl⟩ := List.mem_map.1 hp
  simp [plain, codePoints]

theorem splitSpaces_flatten (cs : List Char) : (splitSpaces cs).flatten = cs := by
  induction cs with
  | nil => rfl
  | cons c cs ih =>
    unfold splitSpaces
    split
    · rename_i hc
      simp [hc, ih]
    · split
      · rename_i hs
        rw [hs] at ih
        simp [← ih]
      · rename_i hs
        rw [hs] at ih
        split <;> simp [← ih]

theorem join_words_plain (text : String) : String.join (plain.words text) = text := by
  simp [plain, join_map_ofList, splitSpaces_flatten]

theorem join_words_unicode (text : String) : String.join (unicode.words text) = text := by
  simp [unicode, join_map_ofList, Unicode.words, Unicode.Boundaries.pieces_flatten]

end Segmenter

def trailing {α : Type} (p : α → Bool) (l : List α) : Nat :=
  (l.rtakeWhile p).length

section Trailing

variable {α β : Type} {p : α → Bool}

@[simp] theorem trailing_nil : trailing p [] = 0 := rfl

theorem trailing_concat (l : List α) (a : α) :
    trailing p (l ++ [a]) = if p a then trailing p l + 1 else 0 := by
  rw [trailing, List.rtakeWhile_concat]
  split
  · rw [List.length_append]
    rfl
  · rfl

theorem trailing_cons (a : α) (l : List α) :
    trailing p (a :: l) = trailing p l + if (a :: l).all p then 1 else 0 := by
  induction l using List.reverseRecOn with
  | nil =>
    have h := trailing_concat (p := p) [] a
    simpa using h
  | append_singleton l b ih =>
    have hc := trailing_concat (p := p) (a :: l) b
    rw [List.cons_append] at hc
    rw [hc, trailing_concat, ih]
    cases hb : p b with
    | true => simp [hb, Nat.add_right_comm]
    | false => simp [hb]

theorem trailing_cons_of_neg {a : α} (h : p a = false) (l : List α) :
    trailing p (a :: l) = trailing p l := by
  simp [trailing_cons, h]

theorem trailing_map (f : β → α) (l : List β) : trailing p (l.map f) = trailing (p ∘ f) l := by
  induction l with
  | nil => rfl
  | cons b l ih => simp [trailing_cons, ih]

theorem odd_trailing_cons_cons {a : α} (h : p a = true) (b : α) (l : List α) :
    Odd (trailing p (a :: b :: l)) ↔ Odd (trailing p l) := by
  have he : (a :: b :: l).all p = (b :: l).all p := by simp [h]
  rw [trailing_cons, trailing_cons, he, Nat.add_assoc]
  split
  · have htwo : Even (1 + 1) := by decide
    simp only [Nat.odd_add, htwo, iff_true]
  · rfl

end Trailing

namespace Segmenter

theorem all_splitSpaces (cs : List Char) :
    (splitSpaces cs).all (· = [' ']) = cs.all (· = ' ') := by
  induction cs with
  | nil => rfl
  | cons c cs ih =>
    unfold splitSpaces
    split
    · rename_i hc
      simp [hc, ih]
    · rename_i hc
      split
      · simp [hc]
      · split <;> simp [hc]

theorem trailing_splitSpaces (cs : List Char) :
    trailing (· = [' ']) (splitSpaces cs) = trailing (· = ' ') cs := by
  induction cs with
  | nil => rfl
  | cons c cs ih =>
    unfold splitSpaces
    split
    · rename_i hc
      simp only [trailing_cons, List.all_cons, ih, all_splitSpaces, hc, decide_true]
    · rename_i hc
      rw [trailing_cons_of_neg (p := (· = ' ')) (decide_eq_false hc), ← ih]
      split
      · rename_i hs
        simp [hs, hc, trailing_cons]
      · rename_i piece more hs
        rw [hs]
        split
        · simp [hc, trailing_cons]
        · rename_i hp
          simp [hc, hp, trailing_cons]

end Segmenter

namespace Unicode

namespace WordState

def spaced (s : WordState) : Bool :=
  s.last = .class .space && !s.skipped

theorem spaced_start (c : Char) : (start c).spaced = decide (WordClass.of c = .space) := by
  unfold start spaced
  cases WordClass.of c <;> rfl

theorem nextEnd_eq_space_iff (last : WordEnd) (k : WordClass) :
    nextEnd last k = .class .space ↔ k = .space := by
  cases last with
  | letterBridge | numberBridge => simp [nextEnd]
  | «class» last =>
    by_cases hk : k = .space
    · simp [nextEnd, hk, WordClass.bridgesLetters, WordClass.bridgesNumbers]
    · simp only [nextEnd]
      split
      · simp [hk]
      · split
        · simp [hk]
        · split <;> simp [hk]

theorem spaced_next (s : WordState) (c : Char) :
    (next s c).spaced = decide (WordClass.of c = .space) := by
  cases hi : (WordClass.of c).isIgnored with
  | true =>
    have hk : WordClass.of c ≠ .space := by
      intro h
      rw [h] at hi
      cases hi
    simp [next, spaced, hi, hk]
  | false => simp [next, spaced, hi, nextEnd_eq_space_iff]

theorem joins_space (s : WordState) (rest : List Char) : joins s ' ' rest = s.spaced := by
  have hk : WordClass.of ' ' = .space := by decide
  have hp : ClusterState.isPictograph ' ' = false := by decide +kernel
  obtain ⟨last, joined, skipped⟩ := s
  unfold joins spaced
  cases last with
  | letterBridge | numberBridge => simp [hk, hp, WordClass.isIgnored, WordClass.isLetter]
  | «class» last =>
    cases last <;>
      simp [hk, hp, WordClass.isIgnored, WordClass.isLineEnd, WordClass.isLetter, goesOn, hebrewQuote,
        WordClass.bridgesLetters, WordClass.bridgesNumbers]

end WordState

/-- The text ends in a space that does not go on with a blank before it. -/
def endsInLoneSpace (cs : List Char) : Bool :=
  cs.getLast? = some ' ' && cs.dropLast.getLast?.all fun c ↦ WordClass.of c ≠ .space

theorem endsInLoneSpace_cons_cons_cons (b c d : Char) (cs : List Char) :
    endsInLoneSpace (b :: c :: d :: cs) = endsInLoneSpace (c :: d :: cs) := by
  simp [endsInLoneSpace]

theorem endsInLoneSpace_pair (b c : Char) :
    endsInLoneSpace [b, c] = (c = ' ' && WordClass.of b ≠ .space) := by
  simp [endsInLoneSpace]

theorem endsInLoneSpace_single (c : Char) : endsInLoneSpace [c] = (c = ' ') := by
  simp [endsInLoneSpace]

open WordState (spaced_start spaced_next joins_space)

theorem all_piece_cons (c : Char) {cs : List Char} (hn : cs ≠ []) :
    ((c :: (wordBoundaries.cut (wordBoundaries.start c) cs).1) ::
      (wordBoundaries.cut (wordBoundaries.start c) cs).2).all (· = [' ']) = false := by
  rw [Bool.eq_false_iff]
  intro h
  obtain ⟨hc, hm⟩ := Bool.and_eq_true_iff.1 h
  obtain ⟨rfl, hp⟩ := List.cons.inj (of_decide_eq_true hc)
  have hf := wordBoundaries.cut_flatten (wordBoundaries.start ' ') cs
  rw [hp, List.nil_append] at hf
  cases hd : (wordBoundaries.cut (wordBoundaries.start ' ') cs).2 with
  | nil => exact hn (by rw [← hf, hd]; rfl)
  | cons q qs =>
    rw [hd] at hm hf
    obtain rfl : q = [' '] := of_decide_eq_true (Bool.and_eq_true_iff.1 hm).1
    have hj : WordState.joins (WordState.start ' ') ' ' qs.flatten = true :=
      (joins_space _ _).trans ((spaced_start ' ').trans (by decide))
    have he : cs = ' ' :: qs.flatten := hf.symm
    rw [he, Boundaries.cut_of_joins hj] at hp
    cases hp

theorem trailing_cut_last {s : WordState} {b : Char}
    (hs : s.spaced = decide (WordClass.of b = .space)) (c : Char) :
    trailing (· = [' ']) (wordBoundaries.cut s [c]).2 = if endsInLoneSpace [b, c] then 1 else 0 := by
  rw [endsInLoneSpace_pair]
  by_cases hc : c = ' '
  · subst hc
    have hj : wordBoundaries.joins s ' ' [] = decide (WordClass.of b = .space) :=
      (joins_space s []).trans hs
    by_cases hb : WordClass.of b = .space
    · rw [Boundaries.cut_of_joins (hj.trans (decide_eq_true hb))]
      simp [hb]
    · rw [Boundaries.cut_of_not_joins (hj.trans (decide_eq_false hb))]
      simp [hb, trailing_cons]
  · cases hj : wordBoundaries.joins s c [] with
    | true =>
      rw [Boundaries.cut_of_joins hj]
      simp [hc]
    | false =>
      rw [Boundaries.cut_of_not_joins hj]
      simp [hc, trailing_cons]

theorem trailing_cut {s : WordState} {b : Char} (hs : s.spaced = decide (WordClass.of b = .space))
    (c : Char) (cs : List Char) :
    trailing (· = [' ']) (wordBoundaries.cut s (c :: cs)).2 =
      if endsInLoneSpace (b :: c :: cs) then 1 else 0 := by
  induction cs generalizing s b c with
  | nil => exact trailing_cut_last hs c
  | cons d cs ih =>
    rw [endsInLoneSpace_cons_cons_cons]
    cases hj : wordBoundaries.joins s c (d :: cs) with
    | true =>
      rw [Boundaries.cut_of_joins hj]
      exact ih (spaced_next s c) d
    | false =>
      rw [Boundaries.cut_of_not_joins hj, trailing_cons, all_piece_cons c (List.cons_ne_nil d cs)]
      exact ih (spaced_start c) d

theorem trailing_words (cs : List Char) :
    trailing (· = [' ']) (words cs) = if endsInLoneSpace cs then 1 else 0 := by
  cases cs with
  | nil => rfl
  | cons c cs =>
    have hw : words (c :: cs) = (c :: (wordBoundaries.cut (wordBoundaries.start c) cs).1) ::
        (wordBoundaries.cut (wordBoundaries.start c) cs).2 := rfl
    rw [hw, trailing_cons]
    cases cs with
    | nil => simp [endsInLoneSpace_single]
    | cons d cs =>
      rw [all_piece_cons c (List.cons_ne_nil d cs)]
      exact trailing_cut (spaced_start c) d cs

end Unicode

end DiagramText
