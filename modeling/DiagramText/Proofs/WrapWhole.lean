import DiagramText.Proofs.Segments
import DiagramText.Proofs.WrapSteps

namespace DiagramText

variable {seg : Segmenter} {fits : Line → Bool}

namespace Line

theorem text_line (seg : Segmenter) (style : Style) (text : String) :
    (seg.line style text).text = String.join (seg.words text) := by
  simp [Line.text, Segmenter.line, Function.comp_def]

end Line

namespace Wrapping

variable {s : Wrapping} {ls : List Line} {queue ws : List Word} {joined : Bool} {w : Word}

/-- The space that wrapping adds to the text of words that are all placed in one line. -/
def doubled (queue : List Word) : String :=
  if Odd (trailing Word.isJoiner queue) then " " else ""

/-- Joiners are taken two at a time, so what they add depends on whether their number is odd. -/
theorem Takes.text_eq (h : Takes queue joined w ws) :
    (extend [] joined w).text ++ (Line.text ws ++ doubled ws) = Line.text queue ++ doubled queue := by
  cases h with
  | bare hw => simp [extend, doubled, trailing_cons_of_neg hw, String.append_assoc]
  | @joined j w ws hj =>
    simp only [extend, doubled, odd_trailing_cons_cons hj]
    simp [Word.joiner, Word.isJoiner_iff.1 hj, String.append_assoc]
  | @lone j hj =>
    simp [extend, doubled, trailing_cons, hj, Word.joiner, Word.isJoiner_iff.1 hj]

theorem text_extend (current : Line) (joined : Bool) (w : Word) :
    (extend current joined w).text = current.text ++ (extend [] joined w).text := by
  simp [extend]

theorem extend_ne_nil (current : Line) (joined : Bool) (w : Word) :
    extend current joined w ≠ [] := by
  simp [extend]

theorem Runs.text_of_accepting (h : Runs seg fits s ls) (ha : ∀ l, fits l = true)
    (hn : s.current ≠ [] ∨ s.queue ≠ []) :
    ∃ l, ls = [l] ∧ l.text = s.current.text ++ (Line.text s.queue ++ doubled s.queue) := by
  induction h with
  | nil => simp at hn
  | last _ => exact ⟨_, rfl, by simp [doubled]⟩
  | step hp _ ih =>
    cases hp with
    | join ht _ =>
      obtain ⟨l, rfl, hl⟩ := ih (.inl (extend_ne_nil _ _ _))
      refine ⟨l, rfl, ?_⟩
      rw [hl, text_extend, String.append_assoc, ht.text_eq]
    | close _ hf _ => cases hf.symm.trans (ha _)
    | cut _ hf _ => cases hf.symm.trans (ha _)
    | drop _ hf _ => cases hf.symm.trans (ha _)

end Wrapping

namespace Segmenter

theorem hasLineBreak_line {text : String} (hj : String.join (seg.words text) = text)
    (h : '\n' ∉ text.toList) (style : Style) : (seg.line style text).hasLineBreak = false := by
  rw [Line.hasLineBreak, List.any_eq_false]
  intro w hw hc
  obtain ⟨s, hs, rfl⟩ := List.mem_map.1 hw
  refine h ?_
  rw [← hj]
  simpa using ⟨s, hs, by simpa using hc⟩

theorem wrap_line_of_accepting {text : String} (hj : String.join (seg.words text) = text)
    (hn : text ≠ "") (hb : '\n' ∉ text.toList) (style : Style) (ha : ∀ l, fits l = true) :
    ∃ l, (seg.line style text).wrap seg fits = .ok [l] ∧
      l.text = if Odd (trailing Word.isJoiner (seg.line style text)) then text ++ " " else text := by
  obtain ⟨ls, he, hr⟩ := Wrapping.exists_runs seg fits (hasLineBreak_line hj hb style)
  have hq : seg.line style text ≠ [] := by
    intro hq
    have ht := Line.text_line seg style text
    rw [hq, hj] at ht
    exact hn ht.symm
  obtain ⟨l, rfl, hl⟩ := hr.text_of_accepting ha (.inr hq)
  refine ⟨l, he, ?_⟩
  rw [hl, Line.text_line, hj, Line.text_nil, String.empty_append, Wrapping.doubled]
  split
  · rfl
  · rw [String.append_empty]

theorem trailing_line (pieces : List (List Char)) (style : Style) :
    trailing Word.isJoiner ((pieces.map String.ofList).map fun w ↦ ⟨w, style⟩) =
      trailing (· = [' ']) pieces := by
  have hp : (Word.isJoiner ∘ fun w ↦ (⟨w, style⟩ : Word)) ∘ String.ofList = (· = [' ']) := by
    funext p
    have hs : String.ofList p = " " ↔ p = [' '] := @String.ofList_inj p [' ']
    simp only [Function.comp_apply, Word.isJoiner, hs]
  rw [trailing_map, trailing_map, hp]

/-- Where everything fits, a line keeps its text, but for a space at its end that is left without a
word to pair it with. Words cut at each space leave one if the spaces at the end are odd in number;
Unicode words leave one if it is a single space, for a run of blanks is one word. -/
theorem wrap_accepted {text : String} (hn : text ≠ "") (hb : '\n' ∉ text.toList) (style : Style)
    (ha : ∀ l, fits l = true) :
    (∃ l, (plain.line style text).wrap plain fits = .ok [l] ∧
      l.text = if Odd (trailing (· = ' ') text.toList) then text ++ " " else text) ∧
    ∃ l, (unicode.line style text).wrap unicode fits = .ok [l] ∧
      l.text = if Unicode.endsInLoneSpace text.toList then text ++ " " else text := by
  constructor
  · obtain ⟨l, he, hl⟩ := wrap_line_of_accepting (join_words_plain text) hn hb style ha
    have ht : trailing Word.isJoiner (plain.line style text) = trailing (· = ' ') text.toList :=
      (trailing_line _ style).trans (trailing_splitSpaces text.toList)
    rw [ht] at hl
    exact ⟨l, he, hl⟩
  · obtain ⟨l, he, hl⟩ := wrap_line_of_accepting (join_words_unicode text) hn hb style ha
    refine ⟨l, he, ?_⟩
    have ht : trailing Word.isJoiner (unicode.line style text) =
        if Unicode.endsInLoneSpace text.toList then 1 else 0 :=
      (trailing_line _ style).trans (Unicode.trailing_words text.toList)
    rw [hl, ht]
    cases Unicode.endsInLoneSpace text.toList <;> rfl

theorem wrap_accepted_spaced :
    "a   " ≠ "" ∧ '\n' ∉ "a   ".toList ∧
    (∃ l, (plain.line .normal "a   ").wrap plain (fun _ ↦ true) = .ok [l] ∧ l.text = "a    ") ∧
    ∃ l, (unicode.line .normal "a   ").wrap unicode (fun _ ↦ true) = .ok [l] ∧ l.text = "a   " := by
  have hn : "a   " ≠ "" := by decide
  have hb : '\n' ∉ "a   ".toList := by decide
  obtain ⟨⟨l, hl, ht⟩, m, hm, hu⟩ := @wrap_accepted (fun _ ↦ true) _ hn hb .normal fun _ ↦ rfl
  exact ⟨hn, hb, ⟨l, hl, ht.trans (by decide +kernel)⟩, m, hm, hu.trans (by decide +kernel)⟩

theorem wrap_accepted_doubles :
    "end " ≠ "" ∧ '\n' ∉ "end ".toList ∧
    (∃ l, (plain.line .normal "end ").wrap plain (fun _ ↦ true) = .ok [l] ∧ l.text = "end  ") ∧
    ∃ l, (unicode.line .normal "end ").wrap unicode (fun _ ↦ true) = .ok [l] ∧ l.text = "end  " := by
  have hn : "end " ≠ "" := by decide
  have hb : '\n' ∉ "end ".toList := by decide
  obtain ⟨l, hl, ht⟩ :=
    @wrap_line_of_accepting plain (fun _ ↦ true) _ (join_words_plain _) hn hb .normal fun _ ↦ rfl
  obtain ⟨m, hm, hu⟩ :=
    @wrap_line_of_accepting unicode (fun _ ↦ true) _ (join_words_unicode _) hn hb .normal fun _ ↦ rfl
  exact ⟨hn, hb, ⟨l, hl, ht.trans (by decide +kernel)⟩, m, hm, hu.trans (by decide +kernel)⟩

end Segmenter

end DiagramText
