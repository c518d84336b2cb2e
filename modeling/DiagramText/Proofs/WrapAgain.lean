import DiagramText.Proofs.WrapEnds
import DiagramText.Proofs.WrapJoiners

namespace DiagramText

variable {seg : Segmenter} {fits : Line → Bool}

namespace Word

/-- A joiner in the plain style, or a word without spaces. -/
def IsUnspaced (w : Word) : Prop :=
  w = .joiner ∨ ' ' ∉ w.content.toList

theorem IsUnspaced.rest_cut {w : Word} (h : w.IsUnspaced) (seg : Segmenter) (fits : Line → Bool) :
    (w.cut seg fits).2.IsUnspaced := by
  rcases h with rfl | hspace
  · rw [cut_of_isJoiner rfl]
    exact .inr (by simp)
  · refine .inr fun hc ↦ hspace ?_
    rw [toList_cut seg fits w]
    exact List.mem_append_right _ hc

end Word

namespace Wrapping

variable {s t : Wrapping} {closed ls : List Line} {queue ws : List Word} {joined : Bool} {w : Word}
  {l : Line}

theorem Takes.isJoiner_eq_false (h : Takes queue joined w ws) (hj : joined = false) :
    w.isJoiner = false := by
  cases h with
  | bare hw => exact hw
  | joined _ | lone _ => cases hj

/-- A line made word by word, each time of what fits. A joiner stands before a word, or another
joiner, that came behind it. -/
inductive Made (fits : Line → Bool) : Line → Prop
  | nil : Made fits []
  | extend {l : Line} {joined : Bool} {w : Word} : Made fits l →
      (joined = false → w.isJoiner = false) → fits (extend l joined w) = true →
      Made fits (extend l joined w)

theorem takes_extend (h : joined = false → w.isJoiner = false) (ws : List Word) :
    Takes (extend [] joined w ++ ws) joined w ws := by
  cases joined with
  | false => exact .bare (h rfl)
  | true => exact .joined rfl

theorem extend_append (l : Line) (joined : Bool) (w : Word) (ws : List Word) :
    extend l joined w ++ ws = l ++ (extend [] joined w ++ ws) := by
  simp [extend]

theorem Runs.of_made (hl : Made fits l) (h : Runs seg fits ⟨[], l ++ ws⟩ ls) :
    Runs seg fits ⟨l, ws⟩ ls := by
  induction hl generalizing ws with
  | nil => exact h
  | @extend l joined w _ hw hf ih =>
    rw [extend_append] at h
    exact (ih h).of_accepted (takes_extend hw ws) hf

def Stays (seg : Segmenter) (fits : Line → Bool) (l : Line) : Prop :=
  ∀ ls, Runs seg fits ⟨[], l⟩ ls → ls = [l]

theorem Made.stays (hl : Made fits l) (hn : l ≠ []) : Stays seg fits l := by
  intro ls h
  rw [← List.append_nil l] at h
  rw [(h.of_made hl).eq_of_no_words, if_neg hn]

theorem eq_nil_of_nothing_left {style : Style} (h : Runs seg fits ⟨[], requeue ⟨"", style⟩ []⟩ ls) :
    ls = [] := by
  have h : Runs seg fits ⟨[], []⟩ ls := h
  exact h.eq_of_no_words

theorem stays_of_rejected (hw : w.isJoiner = false) (hn : w.content ≠ "")
    (hg : seg.graphemes w.content = [w.content]) (hf : fits [w] = false) : Stays seg fits [w] := by
  intro ls h
  obtain ⟨more, rfl, hr⟩ := h.of_cut (.bare hw) hf hn
  rw [Word.cut_of_single hg] at hr ⊢
  rw [eq_nil_of_nothing_left hr]

/-- A joiner that does not fit behind another one stays alone: the second one is made up again. -/
theorem stays_joiner (hf : fits (extend [] true .joiner) = false) : Stays seg fits [.joiner] := by
  intro ls h
  obtain ⟨more, rfl, hr⟩ := h.of_cut (.lone rfl) hf (by decide)
  rw [Word.cut_of_isJoiner rfl] at hr ⊢
  rw [eq_nil_of_nothing_left hr]

theorem stays_cut (hk : seg.KeepsPieces) (hspace : ' ' ∉ w.content.toList) (hn : w.content ≠ "") :
    Stays seg fits [(w.cut seg fits).1] := by
  have hjoiner : (w.cut seg fits).1.isJoiner = false := by
    refine Word.isJoiner_eq_false_of_no_space fun hc ↦ hspace ?_
    rw [Word.toList_cut seg fits w]
    exact List.mem_append_left _ hc
  rcases Word.fits_cut seg fits hn with hf | ⟨hf, hg⟩
  · have hmade : Made fits (extend [] false (w.cut seg fits).1) :=
      .extend .nil (fun _ ↦ hjoiner) hf
    exact hmade.stays (List.cons_ne_nil _ _)
  · have hmem := List.mem_of_head? hg
    exact stays_of_rejected hjoiner (seg.ne_empty_of_mem_graphemes _ _ hmem) (hk _ _ hmem) hf

/-- The line in the making was made word by word, and no word to place holds a space. -/
structure Proper (fits : Line → Bool) (s : Wrapping) : Prop where
  current : Made fits s.current
  queue : ∀ w ∈ s.queue, w.IsUnspaced

theorem Takes.unspaced (h : Takes queue joined w ws) (hq : ∀ v ∈ queue, v.IsUnspaced) :
    w.IsUnspaced ∧ ∀ v ∈ ws, v.IsUnspaced :=
  h.forall_mem (.inl rfl) hq

theorem Places.proper (h : Places seg fits s closed t) (hs : Proper fits s) : Proper fits t := by
  cases h with
  | join ht hf =>
    exact ⟨.extend hs.current ht.isJoiner_eq_false hf, (ht.unspaced hs.queue).2⟩
  | close ht _ _ => exact ⟨.nil, List.forall_mem_cons.2 (ht.unspaced hs.queue)⟩
  | cut ht _ _ =>
    obtain ⟨hw, hws⟩ := ht.unspaced hs.queue
    exact ⟨.nil, forall_mem_requeue (hw.rest_cut seg fits) hws⟩
  | drop ht _ _ => exact ⟨.nil, (ht.unspaced hs.queue).2⟩

theorem Places.stays (hk : seg.KeepsPieces) (h : Places seg fits s closed t) (hs : Proper fits s) :
    ∀ l ∈ closed, Stays seg fits l := by
  cases h with
  | join | drop => simp
  | close _ _ hc => exact List.forall_mem_singleton.2 (hs.current.stays hc)
  | @cut queue ws joined w ht hf hn =>
    rw [List.forall_mem_singleton]
    rcases (ht.unspaced hs.queue).1 with rfl | hspace
    · -- A joiner is only taken behind another one, so that both were refused together.
      obtain rfl : joined = true := by
        cases joined with
        | true => rfl
        | false => cases ht.isJoiner_eq_false rfl
      rw [Word.cut_of_isJoiner rfl]
      exact stays_joiner hf
    · exact stays_cut hk hspace hn

theorem Runs.stays (hk : seg.KeepsPieces) (h : Runs seg fits s ls) (hs : Proper fits s) :
    ∀ l ∈ ls, Stays seg fits l := by
  induction h with
  | nil => simp
  | last hc => exact List.forall_mem_singleton.2 (hs.current.stays hc)
  | step hp _ ih => exact List.forall_mem_append.2 ⟨hp.stays hk hs, ih (hp.proper hs)⟩

end Wrapping

namespace Line

open Wrapping (exists_runs lines_of_end lines_of_step step)

theorem hasLineBreak_iff_visible {line : Line} :
    line.hasLineBreak = true ↔ ∃ style, ('\n', style) ∈ line.visible := by
  simp only [hasLineBreak, visible, Word.visible, List.any_eq_true, List.contains_iff_mem,
    List.mem_flatMap, List.mem_map, List.mem_filter, Prod.mk.injEq, decide_eq_true_eq]
  constructor
  · rintro ⟨w, hw, hc⟩
    exact ⟨w.style, w, hw, '\n', ⟨hc, by decide⟩, rfl, rfl⟩
  · rintro ⟨-, w, hw, c, ⟨hc, -⟩, rfl, rfl⟩
    exact ⟨w, hw, hc⟩

theorem hasLineBreak_of_mem {line l : Line} {ls : List Line} (hv : visible ls.flatten = line.visible)
    (h : line.hasLineBreak = false) (hl : l ∈ ls) : l.hasLineBreak = false := by
  rw [Bool.eq_false_iff] at h ⊢
  intro hb
  obtain ⟨style, hm⟩ := hasLineBreak_iff_visible.1 hb
  refine h (hasLineBreak_iff_visible.2 ⟨style, ?_⟩)
  rw [← hv]
  obtain ⟨w, hw, hc⟩ := List.mem_flatMap.1 hm
  exact List.mem_flatMap.2 ⟨w, List.mem_flatten.2 ⟨l, hl, hw⟩, hc⟩

/-- Whatever fits, each line that comes out of wrapping is wrapped into itself. -/
theorem wrap_wrap (hk : seg.KeepsPieces) {line : Line}
    (h : ∀ w ∈ line, w = .joiner ∨ ' ' ∉ w.content.toList ∧ '\n' ∉ w.content.toList) :
    ∃ ls, line.wrap seg fits = .ok ls ∧ ∀ l ∈ ls, l.wrap seg fits = .ok [l] := by
  have hb : line.hasLineBreak = false := by
    refine hasLineBreak_eq_false_iff.2 fun w hw ↦ ?_
    rcases h w hw with rfl | ⟨-, hbreak⟩
    · decide
    · exact hbreak
  have hunspaced : ∀ w ∈ line, w.IsUnspaced := fun w hw ↦ (h w hw).imp_right And.left
  obtain ⟨ls, he, hr⟩ := exists_runs seg fits hb
  refine ⟨ls, he, fun l hl ↦ ?_⟩
  obtain ⟨ls', he', hr'⟩ := exists_runs seg fits (hasLineBreak_of_mem hr.visible_eq hb hl)
  rw [he', hr.stays hk ⟨.nil, hunspaced⟩ l hl ls' hr']

def gappedLine : Line :=
  [⟨"日", .strong⟩, .joiner, .joiner, ⟨"ab", .normal⟩]

/-- Lines of one byte: a character that is too wide, a joiner, and the word in two halves. -/
def gappedLines : List Line :=
  [[⟨"日", .strong⟩], [.joiner], [⟨"a", .normal⟩], [⟨"b", .normal⟩]]

def isByte (l : Line) : Bool :=
  l.text.utf8ByteSize ≤ 1

theorem wrap_gappedLine : gappedLine.wrap .plain isByte = .ok gappedLines := by
  have hwide : step .plain isByte ⟨[], gappedLine⟩ =
      some ([[⟨"日", .strong⟩]], ⟨[], [.joiner, .joiner, ⟨"ab", .normal⟩]⟩) := rfl
  have hjoiner : step .plain isByte ⟨[], [.joiner, .joiner, ⟨"ab", .normal⟩]⟩ =
      some ([[.joiner]], ⟨[], [⟨"ab", .normal⟩]⟩) := rfl
  have hword : step .plain isByte ⟨[], [⟨"ab", .normal⟩]⟩ =
      some ([[⟨"a", .normal⟩]], ⟨[], [⟨"b", .normal⟩]⟩) := rfl
  have hrest : step .plain isByte ⟨[], [⟨"b", .normal⟩]⟩ =
      some ([], ⟨[⟨"b", .normal⟩], []⟩) := rfl
  rw [wrap, if_neg (by decide), lines_of_step hwide, lines_of_step hjoiner, lines_of_step hword,
    lines_of_step hrest, lines_of_end rfl]
  rfl

theorem wrap_wrap_gappedLine :
    Segmenter.plain.KeepsPieces ∧
    (∀ w ∈ gappedLine, w = .joiner ∨ ' ' ∉ w.content.toList ∧ '\n' ∉ w.content.toList) ∧
    gappedLine.wrap .plain isByte = .ok gappedLines ∧
    ∀ l ∈ gappedLines, l.wrap .plain isByte = .ok [l] := by
  have hk := Segmenter.keepsPieces_plain
  have h : ∀ w ∈ gappedLine, w = .joiner ∨ ' ' ∉ w.content.toList ∧ '\n' ∉ w.content.toList := by
    decide
  obtain ⟨ls, he, hl⟩ : ∃ ls, gappedLine.wrap .plain isByte = .ok ls ∧
      ∀ l ∈ ls, l.wrap .plain isByte = .ok [l] := wrap_wrap hk h
  obtain rfl := Except.ok.inj (he.symm.trans wrap_gappedLine)
  exact ⟨hk, h, he, hl⟩

end Line

end DiagramText
