import DiagramText.Proofs.WrapEnds
import DiagramText.Proofs.WrapJoiners
import DiagramText.Proofs.WrapWhole

namespace DiagramText

variable {seg : Segmenter} {fits : Line → Bool}

def spaces (n : Nat) : String :=
  String.ofList (List.replicate n ' ')

theorem spaces_add (m n : Nat) : spaces (m + n) = spaces m ++ spaces n := by
  rw [spaces, List.replicate_add, String.ofList_append]
  rfl

namespace Line

def textBehind (gaps : List Nat) (ls : List Line) : String :=
  String.join (List.zipWith (fun n l ↦ spaces n ++ l.text) gaps ls)

theorem textBehind_cons (n : Nat) (gaps : List Nat) (l : Line) (ls : List Line) :
    textBehind (n :: gaps) (l :: ls) = spaces n ++ l.text ++ textBehind gaps ls := by
  simp [textBehind]

/-- The lines are the text but for spaces before them. -/
def MakeUp (text : String) (ls : List Line) : Prop :=
  ∃ gaps, gaps.length = ls.length ∧ text = textBehind gaps ls

section MakeUp

variable {text : String} {ls : List Line}

theorem makeUp_nil : MakeUp "" [] :=
  ⟨[], rfl, rfl⟩

theorem MakeUp.cons (h : MakeUp text ls) (n : Nat) (l : Line) :
    MakeUp (spaces n ++ l.text ++ text) (l :: ls) := by
  obtain ⟨gaps, hlength, rfl⟩ := h
  exact ⟨n :: gaps, congrArg (· + 1) hlength, (textBehind_cons n gaps l ls).symm⟩

theorem MakeUp.ne_nil (h : MakeUp text ls) (ht : text ≠ "") : ls ≠ [] := by
  rintro rfl
  obtain ⟨gaps, hlength, rfl⟩ := h
  obtain rfl := List.length_eq_zero_iff.1 hlength
  exact ht rfl

theorem MakeUp.behind (h : MakeUp text ls) (n : Nat) (ht : text ≠ "") :
    MakeUp (spaces n ++ text) ls := by
  obtain ⟨l, ls, rfl⟩ := List.exists_cons_of_ne_nil (h.ne_nil ht)
  obtain ⟨gaps, hlength, rfl⟩ := h
  obtain ⟨m, gaps, rfl⟩ := List.exists_cons_of_length_eq_add_one hlength
  refine ⟨(n + m) :: gaps, hlength, ?_⟩
  rw [textBehind_cons, textBehind_cons, spaces_add]
  simp only [String.append_assoc]

end MakeUp

/-- Joiners and words without spaces, no joiner being the last. -/
structure IsUnpadded (line : Line) : Prop where
  words : ∀ w ∈ line, w.isJoiner = true ∨ w.IsSolid
  ends : line.EndsBare

theorem endsBare_of_cons {w : Word} {ws : List Word} (h : EndsBare (w :: ws)) : EndsBare ws := by
  cases ws with
  | nil => nofun
  | cons v ws => exact h

theorem IsUnpadded.of_cons {w : Word} {ws : List Word} (h : IsUnpadded (w :: ws)) :
    IsUnpadded ws :=
  ⟨(List.forall_mem_cons.1 h.words).2, endsBare_of_cons h.ends⟩

theorem IsUnpadded.ne_empty {w : Word} {ws : List Word} (h : IsUnpadded (w :: ws)) :
    w.content ≠ "" := by
  rcases h.words w List.mem_cons_self with hj | hw
  · rw [Word.isJoiner_iff.1 hj]
    decide
  · exact hw.ne_empty

theorem IsUnpadded.hasLineBreak {line : Line} (h : line.IsUnpadded) : line.hasLineBreak = false := by
  refine hasLineBreak_eq_false_iff.2 fun w hw ↦ ?_
  rcases h.words w hw with hj | hsolid
  · rw [Word.isJoiner_iff.1 hj]
    decide
  · exact hsolid.no_break

end Line

namespace Wrapping

open Line (IsUnpadded MakeUp makeUp_nil)

variable {s : Wrapping} {ls : List Line} {queue ws : List Word} {joined : Bool} {w : Word}

theorem Takes.unpadded (h : Takes queue joined w ws) (hq : IsUnpadded queue) :
    IsUnpadded (w :: ws) := by
  cases h with
  | bare _ => exact hq
  | joined _ => exact hq.of_cons
  | @lone j hj => cases hj.symm.trans (hq.ends j rfl)

theorem unpadded_requeue (h : IsUnpadded (w :: ws)) :
    IsUnpadded (requeue (w.cut seg fits).2 ws) := by
  unfold requeue
  split
  · rename_i hn
    rcases h.words w List.mem_cons_self with hj | hw
    · rw [Word.cut_of_isJoiner hj] at hn
      exact absurd rfl hn
    · have hrest := hw.rest_cut hn
      refine ⟨List.forall_mem_cons.2 ⟨.inr hrest, h.of_cons.words⟩, ?_⟩
      cases ws with
      | nil =>
        rintro v ⟨⟩
        exact hrest.isJoiner_eq_false
      | cons v ws => exact h.ends
  · exact h.of_cons

theorem text_extend_nil (joined : Bool) (w : Word) :
    (extend [] joined w).text = spaces joined.toNat ++ w.content := by
  cases joined <;> rw [extend] <;> simp [spaces, Word.joiner]

theorem Takes.text_queue (h : Takes queue joined w ws) (hq : IsUnpadded queue) :
    Line.text queue = spaces joined.toNat ++ Line.text (w :: ws) := by
  cases h with
  | bare _ => simp [spaces]
  | joined hj => simp [spaces, Word.isJoiner_iff.1 hj]
  | @lone j hj => cases hj.symm.trans (hq.ends j rfl)

theorem text_requeue (rest : Word) (ws : List Word) :
    Line.text (requeue rest ws) = rest.content ++ Line.text ws := by
  unfold requeue
  split
  · rw [Line.text_cons]
  · rename_i h
    rw [Decidable.not_not.1 h, String.empty_append]

theorem text_cut (seg : Segmenter) (fits : Line → Bool) (w : Word) (ws : List Word) :
    Line.text [(w.cut seg fits).1] ++ Line.text (requeue (w.cut seg fits).2 ws) =
      Line.text (w :: ws) := by
  rw [text_requeue, Line.text_cons, Line.text_nil, String.append_empty, ← String.append_assoc,
    Word.cut_content, Line.text_cons]

theorem Runs.makeUp (h : Runs seg fits s ls) (hq : IsUnpadded s.queue) :
    MakeUp (s.current.text ++ Line.text s.queue) ls := by
  induction h with
  | nil => exact makeUp_nil
  | @last current _ =>
    have hlast := makeUp_nil.cons 0 current
    rwa [spaces, List.replicate_zero, String.ofList_nil, String.empty_append] at hlast
  | step hp _ ih =>
    cases hp with
    | @join current queue ws joined w ht _ =>
      have hnext := ht.unpadded hq
      have hmade := ih hnext.of_cons
      rwa [text_extend, text_extend_nil, String.append_assoc, String.append_assoc,
        ← Line.text_cons, ← ht.text_queue hq] at hmade
    | @close current queue ws joined w ht _ _ =>
      have hnext := ht.unpadded hq
      have hmade : MakeUp (Line.text (w :: ws)) _ := String.empty_append ▸ ih hnext
      have hn : Line.text (w :: ws) ≠ "" := by
        rw [Line.text_cons, ne_eq, String.append_eq_empty_iff]
        exact fun he ↦ hnext.ne_empty he.1
      have hline := (hmade.behind joined.toNat hn).cons 0 current
      rw [← ht.text_queue hq] at hline
      simpa [spaces] using hline
    | @cut queue ws joined w ht _ _ =>
      have hmade := ih (unpadded_requeue (ht.unpadded hq))
      have hline := hmade.cons joined.toNat [(w.cut seg fits).1]
      rw [Line.text_nil, String.empty_append, String.append_assoc, text_cut,
        ← ht.text_queue hq] at hline
      simpa using hline
    | drop ht _ hn => exact absurd hn (ht.unpadded hq).ne_empty

end Wrapping

namespace Line

open Wrapping (exists_runs lines_of_end lines_of_step step)

/-- Where joiners and words without spaces are wrapped and a word is the last, spaces are lost before
lines and nothing else is lost or added. -/
theorem text_wrap (seg : Segmenter) (fits : Line → Bool) {line : Line}
    (hw : ∀ w ∈ line, w.isJoiner = true ∨ w.IsSolid) (he : line.EndsBare) :
    ∃ ls, line.wrap seg fits = .ok ls ∧
      ∃ gaps : List Nat, gaps.length = ls.length ∧
        line.text = String.join (List.zipWith (fun n l ↦ spaces n ++ l.text) gaps ls) := by
  have hline : line.IsUnpadded := ⟨hw, he⟩
  obtain ⟨ls, hls, hr⟩ := exists_runs seg fits hline.hasLineBreak
  obtain ⟨gaps, hlength, htext⟩ := hr.makeUp hline
  rw [text_nil, String.empty_append] at htext
  exact ⟨ls, hls, gaps, hlength, htext⟩

def indentedLine : Line :=
  [.joiner, ⟨"a", .normal⟩, .joiner, .joiner, ⟨"bc", .strong⟩]

/-- A word to a line. A joiner is lost before the first of them, and one before a joiner. -/
def indentedLines : List Line :=
  [[⟨"a", .normal⟩], [.joiner], [⟨"bc", .strong⟩]]

def isOneWord (l : Line) : Bool :=
  l.length ≤ 1

theorem wrap_indentedLine : indentedLine.wrap .plain isOneWord = .ok indentedLines := by
  have hfirst : step .plain isOneWord ⟨[], indentedLine⟩ =
      some ([[⟨"a", .normal⟩]], ⟨[], [.joiner, .joiner, ⟨"bc", .strong⟩]⟩) := rfl
  have hjoiner : step .plain isOneWord ⟨[], [.joiner, .joiner, ⟨"bc", .strong⟩]⟩ =
      some ([[.joiner]], ⟨[], [⟨"bc", .strong⟩]⟩) := rfl
  have hlast : step .plain isOneWord ⟨[], [⟨"bc", .strong⟩]⟩ =
      some ([], ⟨[⟨"bc", .strong⟩], []⟩) := rfl
  rw [wrap, if_neg (by decide), lines_of_step hfirst, lines_of_step hjoiner, lines_of_step hlast,
    lines_of_end rfl]
  rfl

theorem text_wrap_indentedLine :
    (∀ w ∈ indentedLine, w.isJoiner = true ∨ w.IsSolid) ∧ indentedLine.EndsBare ∧
    indentedLine.wrap .plain isOneWord = .ok indentedLines ∧
    ∃ gaps : List Nat, gaps.length = 3 ∧
      " a  bc" = String.join (List.zipWith (fun n l ↦ spaces n ++ l.text) gaps indentedLines) := by
  have hsolid {s : String} (style : Style) (h : s ≠ "" ∧ ' ' ∉ s.toList ∧ '\n' ∉ s.toList) :
      Word.IsSolid ⟨s, style⟩ := ⟨h.1, h.2.1, h.2.2⟩
  have hw : ∀ w ∈ indentedLine, w.isJoiner = true ∨ w.IsSolid := by
    simp only [indentedLine, List.forall_mem_cons]
    exact ⟨.inl rfl, .inr (hsolid _ (by decide)), .inl rfl, .inl rfl, .inr (hsolid _ (by decide)),
      nofun⟩
  have he : indentedLine.EndsBare := by
    rintro w ⟨⟩
    rfl
  obtain ⟨ls, hls, hgaps⟩ := text_wrap .plain isOneWord hw he
  obtain rfl := Except.ok.inj (hls.symm.trans wrap_indentedLine)
  exact ⟨hw, he, hls, hgaps⟩

end Line

end DiagramText
