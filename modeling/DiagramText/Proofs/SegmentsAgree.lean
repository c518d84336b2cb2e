import DiagramText.Proofs.WrapEnds
import DiagramText.Proofs.WrapLabels
import Mathlib.Data.List.Infix

namespace DiagramText

/-- Letters and digits of ASCII, and spaces that do not follow one another. -/
structure Text.IsPlain (cs : List Char) : Prop where
  ascii : ∀ c ∈ cs, c.isAlphanum = true ∨ c = ' '
  single : ¬[' ', ' '] <:+: cs

variable {c : Char} {cs : List Char}

theorem Text.IsPlain.tail (h : IsPlain (c :: cs)) : IsPlain cs where
  ascii := (List.forall_mem_cons.1 h.ascii).2
  single hin := h.single (hin.trans (List.suffix_cons c cs).isInfix)

theorem Text.IsPlain.alphanum_of_ne (h : IsPlain (c :: cs)) (hc : c ≠ ' ') : c.isAlphanum = true :=
  (h.ascii c List.mem_cons_self).resolve_right hc

theorem Text.IsPlain.head?_ne (h : IsPlain (' ' :: cs)) : cs.head? ≠ some ' ' := by
  intro hs
  obtain ⟨rest, rfl⟩ := List.head?_eq_some_iff.1 hs
  exact h.single ⟨[], rest, rfl⟩

theorem Text.lines_of_not_mem (h : '\n' ∉ cs) (hn : cs ≠ []) : lines cs = [cs] := by
  fun_induction lines cs with
  | case1 => exact absurd rfl hn
  | case2 | case3 => simp at h
  | case4 c cs _ _ hrest ih =>
    obtain rfl : cs = [] := by
      by_contra hcs
      rw [ih (List.not_mem_of_not_mem_cons h) hcs] at hrest
      cases hrest
    rfl
  | case5 c cs _ _ line rest hrest ih =>
    have hcs : cs ≠ [] := by
      rintro rfl
      cases hrest
    rw [ih (List.not_mem_of_not_mem_cons h) hcs] at hrest
    obtain ⟨rfl, rfl⟩ := List.cons.inj hrest
    rfl

namespace Segmenter

theorem splitSpaces_space (cs : List Char) : splitSpaces (' ' :: cs) = [' '] :: splitSpaces cs := by
  rw [splitSpaces, if_pos rfl]

theorem splitSpaces_cons (hc : c ≠ ' ') (cs : List Char) :
    splitSpaces (c :: cs) =
      (c :: cs.takeWhile (· ≠ ' ')) :: splitSpaces (cs.dropWhile (· ≠ ' ')) := by
  induction cs generalizing c with
  | nil => simp [splitSpaces, hc]
  | cons d cs ih =>
    rw [splitSpaces, if_neg hc]
    by_cases hd : d = ' '
    · rw [hd, splitSpaces_space]
      simp [splitSpaces_space]
    · rw [ih hd]
      simp [hd]

theorem forall_ne_of_not_mem {word : List Char} (h : ' ' ∉ word) :
    ∀ d ∈ word, decide (d ≠ ' ') = true :=
  fun _ hd ↦ decide_eq_true fun he ↦ h (he ▸ hd)

theorem splitSpaces_of_not_mem {word : List Char} (h : ' ' ∉ word) :
    splitSpaces word = [word].filter (· ≠ []) := by
  cases word with
  | nil => rfl
  | cons c word =>
    have hword := forall_ne_of_not_mem (List.not_mem_of_not_mem_cons h)
    rw [splitSpaces_cons (List.ne_of_not_mem_cons h).symm, List.takeWhile_eq_self_iff.2 hword,
      List.dropWhile_eq_nil_iff.2 hword]
    rfl

theorem splitSpaces_append {word : List Char} (h : ' ' ∉ word) (cs : List Char) :
    splitSpaces (word ++ ' ' :: cs) = [word].filter (· ≠ []) ++ [' '] :: splitSpaces cs := by
  cases word with
  | nil => simp [splitSpaces_space]
  | cons c word =>
    have hword := forall_ne_of_not_mem (List.not_mem_of_not_mem_cons h)
    rw [List.cons_append, splitSpaces_cons (List.ne_of_not_mem_cons h).symm,
      List.takeWhile_append_of_pos hword, List.dropWhile_append_of_pos hword]
    simp [splitSpaces_space]

/-- The words are what stands between the spaces, with a joiner behind each; empty ones are left
out, and so is the last joiner. -/
theorem splitSpaces_eq_dropLast (cs : List Char) :
    splitSpaces cs =
      (((cs.splitOn ' ').flatMap fun word ↦ [word, [' ']]).filter (· ≠ [])).dropLast := by
  suffices ((cs.splitOn ' ').flatMap fun word ↦ [word, [' ']]).filter (· ≠ []) =
      splitSpaces cs ++ [[' ']] by rw [this, List.dropLast_concat]
  -- The first space, if there is one, leaves a shorter text behind it.
  induction hn : cs.length using Nat.strongRecOn generalizing cs with
  | ind n ih =>
    by_cases hm : ' ' ∈ cs
    · obtain ⟨word, rest, rfl, hw⟩ := List.eq_append_cons_of_mem hm
      have hlt : rest.length < n := by
        rw [← hn, List.length_append, List.length_cons]
        omega
      rw [List.splitOn_append_cons_self_of_not_mem hw, List.flatMap_cons, List.filter_append,
        ih rest.length hlt rest rfl, splitSpaces_append hw]
      cases word <;> simp
    · have hone : cs.splitOn ' ' = [cs] := by
        have hcat := @List.splitOn_intercalate _ [cs] _ _ ' ' (by simpa using hm) (by simp)
        simpa using hcat
      rw [hone, splitSpaces_of_not_mem hm]
      cases cs <;> simp

end Segmenter

open Segmenter (splitSpaces splitSpaces_space splitSpaces_cons codePoints)

namespace Unicode

def IsPrintable (c : Char) : Prop :=
  ' ' ≤ c ∧ c ≤ '~'

theorem isPrintable_of_alphanum (h : c.isAlphanum = true) : IsPrintable c := by
  change (decide ('A'.val ≤ c.val ∧ c.val ≤ 'Z'.val) || ('a'.val ≤ c.val && c.val ≤ 'z'.val) ||
    ('0'.val ≤ c.val && c.val ≤ '9'.val)) = true at h
  simp only [Bool.or_eq_true, Bool.and_eq_true, decide_eq_true_eq, UInt32.le_iff_toNat_le] at h
  simp only [IsPrintable, Char.le_def, UInt32.le_iff_toNat_le]
  rcases h with (⟨hlo, hhi⟩ | ⟨hlo, hhi⟩) | ⟨hlo, hhi⟩
  · simp at hlo hhi ⊢
    omega
  · simp at hlo hhi ⊢
    omega
  · simp at hlo hhi ⊢
    omega

theorem WordClass.of_alphanum (h : c.isAlphanum = true) : of c = .letter ∨ of c = .numeric := by
  have hascii : c ≤ '\x7f' := Char.le_trans (isPrintable_of_alphanum h).2 (by decide)
  rw [of, if_pos hascii, ofAscii]
  cases ha : c.isAlpha with
  | true => exact .inl rfl
  | false =>
    have hd : c.isDigit = true := by simpa [Char.isAlphanum, ha] using h
    exact .inr (by simp [hd])

namespace WordState

/-- A word of letters and digits, that another letter or digit goes on with and a space does not. -/
inductive InWord : WordState → Prop
  | letter : InWord ⟨.class .letter, false, false⟩
  | numeric : InWord ⟨.class .numeric, false, false⟩

variable {s : WordState}

theorem InWord.start (h : c.isAlphanum = true) : InWord (start c) := by
  rcases WordClass.of_alphanum h with hk | hk
  · rw [WordState.start, hk]
    exact .letter
  · rw [WordState.start, hk]
    exact .numeric

theorem InWord.next (hs : s.InWord) (h : c.isAlphanum = true) : InWord (next s c) := by
  rcases WordClass.of_alphanum h with hk | hk
  · rw [WordState.next, hk]
    cases hs <;> exact .letter
  · rw [WordState.next, hk]
    cases hs <;> exact .numeric

theorem InWord.joins_alphanum (hs : s.InWord) (h : c.isAlphanum = true) (rest : List Char) :
    joins s c rest = true := by
  rcases WordClass.of_alphanum h with hk | hk
  · cases hs <;> simp [joins, hk, goesOn, WordClass.isLineEnd, WordClass.isLetter]
  · cases hs <;> simp [joins, hk, goesOn, WordClass.isLineEnd]

theorem InWord.not_joins_space (hs : s.InWord) (rest : List Char) : joins s ' ' rest = false := by
  rw [joins_space]
  cases hs <;> rfl

theorem not_joins_of_space (h : c.isAlphanum = true) (rest : List Char) :
    joins (WordState.start ' ') c rest = false := by
  have hclass : WordClass.of ' ' = .space := by decide
  have hspace : WordState.start ' ' = ⟨.class .space, false, false⟩ := by
    rw [WordState.start, hclass]
    rfl
  rcases WordClass.of_alphanum h with hk | hk
  · simp [joins, hspace, hk, goesOn, hebrewQuote, WordClass.isLineEnd, WordClass.isIgnored]
  · simp [joins, hspace, hk, goesOn, hebrewQuote, WordClass.isLineEnd, WordClass.isIgnored]

end WordState

open WordState (InWord)

theorem cut_plain (h : Text.IsPlain cs) :
    (∀ s : WordState, s.InWord → wordBoundaries.cut s cs =
      (cs.takeWhile (· ≠ ' '), splitSpaces (cs.dropWhile (· ≠ ' ')))) ∧
    (cs.head? ≠ some ' ' →
      wordBoundaries.cut (wordBoundaries.start ' ') cs = ([], splitSpaces cs)) := by
  induction cs with
  | nil => exact ⟨fun _ _ ↦ rfl, fun _ ↦ rfl⟩
  | cons c cs ih =>
    obtain ⟨hword, hspace⟩ := ih h.tail
    refine ⟨fun s hs ↦ ?_, fun hhead ↦ ?_⟩
    · by_cases hc : c = ' '
      · subst hc
        rw [Boundaries.cut_of_not_joins (hs.not_joins_space cs), hspace h.head?_ne]
        simp [splitSpaces_space]
      · have ha := h.alphanum_of_ne hc
        rw [Boundaries.cut_of_joins (hs.joins_alphanum ha cs),
          hword (wordBoundaries.next s c) (hs.next ha)]
        simp [hc]
    · have hc : c ≠ ' ' := fun he ↦ hhead (congrArg some he)
      have ha := h.alphanum_of_ne hc
      rw [Boundaries.cut_of_not_joins (WordState.not_joins_of_space ha cs),
        hword (wordBoundaries.start c) (.start ha), splitSpaces_cons hc]

theorem words_plain (h : Text.IsPlain cs) : words cs = splitSpaces cs := by
  cases cs with
  | nil => rfl
  | cons c cs =>
    have hw : words (c :: cs) = (c :: (wordBoundaries.cut (wordBoundaries.start c) cs).1) ::
        (wordBoundaries.cut (wordBoundaries.start c) cs).2 := rfl
    obtain ⟨hword, hspace⟩ := cut_plain h.tail
    by_cases hc : c = ' '
    · subst hc
      rw [hw, hspace h.head?_ne, splitSpaces_space]
    · have ha := h.alphanum_of_ne hc
      rw [hw, hword (wordBoundaries.start c) (.start ha), splitSpaces_cons hc]

theorem IsPrintable.not_joins {a : Char} (ha : IsPrintable a) (hc : IsPrintable c)
    (rest : List Char) : ClusterState.joins (ClusterState.start a) c rest = false := by
  have hother {b : Char} (hb : IsPrintable b) : ClusterClass.of b = .other := by
    rw [ClusterClass.of, if_pos (by simp [hb.1, hb.2])]
  have hlinked (p : Prop) [Decidable p] : (if p then Chain.begun else .none) ≠ .linked := by
    split <;> decide
  simp [ClusterState.joins, ClusterState.start, hother ha, hother hc, hlinked,
    ClusterClass.isControl, ClusterState.pairs]

theorem clusters_of_printable (h : ∀ c ∈ cs, IsPrintable c) : clusters cs = codePoints cs := by
  have hcut : ∀ (a : Char) (cs : List Char), IsPrintable a → (∀ c ∈ cs, IsPrintable c) →
      clusterBoundaries.cut (clusterBoundaries.start a) cs = ([], codePoints cs) := by
    intro a cs ha hcs
    induction cs generalizing a with
    | nil => rfl
    | cons c cs ih =>
      obtain ⟨hc, hcs⟩ := List.forall_mem_cons.1 hcs
      rw [Boundaries.cut_of_not_joins (ha.not_joins hc cs), ih c hc hcs]
      rfl
  cases cs with
  | nil => rfl
  | cons c cs =>
    obtain ⟨hc, hcs⟩ := List.forall_mem_cons.1 h
    have hp : clusters (c :: cs) =
      (c :: (clusterBoundaries.cut (clusterBoundaries.start c) cs).1) ::
        (clusterBoundaries.cut (clusterBoundaries.start c) cs).2 := rfl
    rw [hp, hcut c cs hc hcs]
    rfl

end Unicode

open Unicode (IsPrintable)

theorem Text.IsPlain.printable (h : IsPlain cs) : ∀ c ∈ cs, IsPrintable c := by
  intro c hc
  rcases h.ascii c hc with ha | rfl
  · exact Unicode.isPrintable_of_alphanum ha
  · exact ⟨by decide, by decide⟩

theorem Text.IsPlain.not_mem_feed (h : IsPlain cs) : '\n' ∉ cs := by
  intro hn
  exact absurd (h.printable '\n' hn).1 (by decide)

namespace Segmenter

variable {text : String}

theorem words_unicode_eq (h : Text.IsPlain text.toList) :
    unicode.words text = plain.words text := by
  simp only [unicode, plain, Unicode.words_plain h]

theorem graphemes_unicode_eq (h : ∀ c ∈ text.toList, IsPrintable c) :
    unicode.graphemes text = plain.graphemes text := by
  simp only [unicode, plain, Unicode.clusters_of_printable h]

theorem printable_of_mem_words (h : Text.IsPlain text.toList) :
    ∀ w ∈ plain.words text, ∀ c ∈ w.toList, IsPrintable c := by
  intro w hw c hc
  refine h.printable c ?_
  rw [← join_words_plain text, String.toList_join]
  exact List.mem_flatMap.2 ⟨w, hw, hc⟩

end Segmenter

section Congruence

variable {seg seg' : Segmenter} {fits : Line → Bool} {P : Word → Prop} {s t : Wrapping}

theorem Word.cut_congr {w : Word} (h : seg.graphemes w.content = seg'.graphemes w.content) :
    w.cut seg fits = w.cut seg' fits := by
  simp only [cut, cutAt, h]

namespace Wrapping

theorem forall_mem_queue_of_step {closed : List Line} (hjoiner : P .joiner)
    (hcut : ∀ w, P w → P (w.cut seg fits).2) (hs : s.step seg fits = some (closed, t))
    (h : ∀ w ∈ s.queue, P w) : ∀ w ∈ t.queue, P w := by
  cases places_of_step hs with
  | join ht _ | drop ht _ _ => exact (ht.forall_mem hjoiner h).2
  | close ht _ _ => exact List.forall_mem_cons.2 (ht.forall_mem hjoiner h)
  | cut ht _ _ =>
    obtain ⟨hw, hws⟩ := ht.forall_mem hjoiner h
    exact forall_mem_requeue (hcut _ hw) hws

theorem step_congr (hjoiner : P .joiner)
    (hsame : ∀ w : Word, P w → seg.graphemes w.content = seg'.graphemes w.content)
    (h : ∀ w ∈ s.queue, P w) : s.step seg fits = s.step seg' fits := by
  rw [step, step]
  cases hn : next? s.queue with
  | none => rfl
  | some out =>
    obtain ⟨joined, w, ws⟩ := out
    have hw : P w := ((takes_of_next? hn).forall_mem hjoiner h).1
    simp only [Option.map_some, Word.cut_congr (hsame w hw)]

/-- Segmenters that agree on the words to place, and on what is left of them once they are cut, give
the same lines. -/
theorem lines_congr (hjoiner : P .joiner) (hcut : ∀ w, P w → P (w.cut seg fits).2)
    (hsame : ∀ w : Word, P w → seg.graphemes w.content = seg'.graphemes w.content)
    (h : ∀ w ∈ s.queue, P w) : lines seg fits s = lines seg' fits s := by
  fun_induction lines seg fits s with
  | case1 s closed t hs _ ih =>
    have hs' := (step_congr hjoiner hsame h).symm.trans hs
    rw [lines_of_step hs', ih (forall_mem_queue_of_step hjoiner hcut hs h)]
  | case2 s hs hc | case3 s hs hc =>
    have hs' := (step_congr hjoiner hsame h).symm.trans hs
    simp [lines_of_end hs', unfinished, hc]

end Wrapping

end Congruence

def Word.Printable (w : Word) : Prop :=
  ∀ c ∈ w.content.toList, IsPrintable c

theorem Word.printable_joiner : joiner.Printable := by
  simp [Printable, joiner, IsPrintable]

theorem Word.Printable.cut {w : Word} (h : w.Printable) (seg : Segmenter) (fits : Line → Bool) :
    (w.cut seg fits).2.Printable := by
  intro c hc
  refine h c ?_
  rw [← w.cut_content seg fits, String.toList_append]
  exact List.mem_append_right _ hc

theorem Line.wrap_unicode_eq {text : String} (h : Text.IsPlain text.toList) (style : Style)
    (fits : Line → Bool) :
    (Segmenter.unicode.line style text).wrap .unicode fits =
      (Segmenter.plain.line style text).wrap .plain fits := by
  have hline : Segmenter.unicode.line style text = Segmenter.plain.line style text := by
    rw [Segmenter.line, Segmenter.line, Segmenter.words_unicode_eq h]
  have hprintable : ∀ w ∈ Segmenter.plain.line style text, w.Printable := by
    intro w hw
    obtain ⟨content, hcontent, rfl⟩ := List.mem_map.1 hw
    exact Segmenter.printable_of_mem_words h content hcontent
  have hlines := Wrapping.lines_congr (P := Word.Printable)
    (s := ⟨[], Segmenter.plain.line style text⟩) Word.printable_joiner
    (fun _ hw ↦ hw.cut .unicode fits)
    (fun _ hw ↦ Segmenter.graphemes_unicode_eq hw) hprintable
  rw [hline, wrap, wrap, hlines]

namespace Settings

variable {text : String}

theorem wrapLine_unicode_eq (s : Settings) (h : Text.IsPlain text.toList) :
    { s with segmentation := .unicode }.wrapLine text =
      { s with segmentation := .plain }.wrapLine text := by
  simp only [wrapLine, Segmentation.segmenter, Line.wrap_unicode_eq h]

theorem wrapLabel_unicode_eq (s : Settings) (h : Text.IsPlain text.toList) :
    { s with segmentation := .unicode }.wrapLabel text =
      { s with segmentation := .plain }.wrapLabel text := by
  by_cases hn : text.toList = []
  · rw [wrapLabel, wrapLabel, hn]
    rfl
  · rw [wrapLabel, wrapLabel, Text.lines_of_not_mem h.not_mem_feed hn, List.mapM_cons,
      List.mapM_cons, String.ofList_toList, s.wrapLine_unicode_eq h]
    rfl

end Settings

/-- In a text of letters and digits of ASCII with single spaces, the two segmenters find the same
words and in each word the same visible characters. Whatever the width, they give the same label
lines. -/
theorem Text.IsPlain.segmented_alike {text : String} (h : Text.IsPlain text.toList) :
    Segmenter.unicode.words text = Segmenter.plain.words text ∧
    (∀ w ∈ Segmenter.plain.words text,
      Segmenter.unicode.graphemes w = Segmenter.plain.graphemes w) ∧
    ∀ s : Settings, ∃ lines, { s with segmentation := .unicode }.wrapLabel text = .ok lines ∧
      { s with segmentation := .plain }.wrapLabel text = .ok lines := by
  refine ⟨Segmenter.words_unicode_eq h, fun w hw ↦ ?_, fun s ↦ ?_⟩
  · exact Segmenter.graphemes_unicode_eq (Segmenter.printable_of_mem_words h w hw)
  · obtain ⟨parts, hparts, -⟩ := exists_mapM_eq_ok (R := Settings.Shows)
      fun line hline ↦ { s with segmentation := .plain }.exists_wrapLine
        (@Text.not_mem_of_mem_lines text.toList line hline)
    have hplain : { s with segmentation := .plain }.wrapLabel text = .ok parts.flatten := by
      rw [Settings.wrapLabel, hparts]
      rfl
    exact ⟨parts.flatten, (s.wrapLabel_unicode_eq h).trans hplain, hplain⟩

theorem Text.IsPlain.segmented_alike_padded :
    Text.IsPlain " the 2nd fox ".toList ∧
    Segmenter.unicode.words " the 2nd fox " = [" ", "the", " ", "2nd", " ", "fox", " "] ∧
    Segmenter.unicode.graphemes "2nd" = ["2", "n", "d"] ∧
    ∃ lines, { maxWidth := 2, segmentation := .unicode : Settings }.wrapLabel " the 2nd fox " =
        .ok lines ∧
      { maxWidth := 2, segmentation := .plain : Settings }.wrapLabel " the 2nd fox " =
        .ok lines := by
  have h : Text.IsPlain " the 2nd fox ".toList := ⟨by simp, by decide +kernel⟩
  obtain ⟨hwords, hgraphemes, hlabels⟩ := h.segmented_alike
  have hword : "2nd" ∈ Segmenter.plain.words " the 2nd fox " := by decide +kernel
  exact ⟨h, hwords.trans (by decide +kernel), (hgraphemes "2nd" hword).trans (by decide +kernel),
    hlabels { maxWidth := 2 }⟩

end DiagramText
