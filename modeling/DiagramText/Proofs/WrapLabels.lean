import DiagramText.Layout.Labels
import DiagramText.Proofs.WrapLines
import DiagramText.Proofs.WrapWhole
import Mathlib.Data.List.Forall2

namespace DiagramText

namespace Text

def solid (cs : List Char) : List Char :=
  cs.filter (· ≠ ' ')

theorem mem_solid_iff {c : Char} (h : c ≠ ' ') {cs : List Char} : c ∈ solid cs ↔ c ∈ cs := by
  simp [solid, h]

theorem not_mem_of_mem_lines {cs line : List Char} (h : line ∈ lines cs) : '\n' ∉ line := by
  suffices ∀ line ∈ lines cs, '\n' ∉ line from this line h
  clear h
  fun_induction lines cs with
  | case1 => simp
  | case2 cs ih | case3 cs ih => simpa using ih
  | case4 c cs _ hn _ _ =>
    rw [List.forall_mem_singleton]
    exact List.not_mem_cons_of_ne_of_not_mem (Ne.symm hn) List.not_mem_nil
  | case5 c cs _ hn line rest hs ih =>
    rw [hs] at ih
    obtain ⟨hline, hrest⟩ := List.forall_mem_cons.1 ih
    exact List.forall_mem_cons.2 ⟨List.not_mem_cons_of_ne_of_not_mem (Ne.symm hn) hline, hrest⟩

end Text

open Text (solid)

theorem Line.map_fst_visible (l : Line) : l.visible.map Prod.fst = solid l.text.toList := by
  induction l with
  | nil => rfl
  | cons w l ih => simp [Word.visible, solid, ih, Function.comp_def]

theorem Line.solid_flatten (ls : List Line) :
    (ls.map Line.text).flatMap (fun s ↦ solid s.toList) = (Line.visible ls.flatten).map Prod.fst := by
  induction ls with
  | nil => rfl
  | cons l ls ih => simp [map_fst_visible, ih]

theorem Segmentation.join_words (g : Segmentation) (text : String) :
    String.join (g.segmenter.words text) = text := by
  cases g with
  | unicode => exact Segmenter.join_words_unicode text
  | plain => exact Segmenter.join_words_plain text

theorem exists_mapM_eq_ok {α β ε : Type} {f : α → Except ε β} {R : α → β → Prop} {as : List α}
    (h : ∀ a ∈ as, ∃ b, f a = .ok b ∧ R a b) : ∃ bs, as.mapM f = .ok bs ∧ List.Forall₂ R as bs := by
  induction as with
  | nil => exact ⟨[], rfl, .nil⟩
  | cons a as ih =>
    obtain ⟨⟨b, hb, hr⟩, has⟩ := List.forall_mem_cons.1 h
    obtain ⟨bs, hbs, hrs⟩ := ih has
    refine ⟨b :: bs, ?_, .cons hr hrs⟩
    rw [List.mapM_cons, hb, hbs]
    rfl

namespace Settings

/-- The lines that come of a line, of which there is at least one, and what they show. -/
def Shows (line : List Char) (part : List String) : Prop :=
  part ≠ [] ∧ part.flatMap (fun s ↦ solid s.toList) = solid line

theorem exists_wrapLine (s : Settings) {line : List Char} (h : '\n' ∉ line) :
    ∃ part, s.wrapLine (String.ofList line) = .ok part ∧ Shows line part := by
  have hjoin := s.segmentation.join_words (String.ofList line)
  have hb := Segmenter.hasLineBreak_line hjoin (by rwa [String.toList_ofList]) .normal
  obtain ⟨ls, he, hr⟩ := Wrapping.exists_runs s.segmentation.segmenter (Line.fitsIn s.maxWidth) hb
  have hwrap : s.wrapLine (String.ofList line) =
      .ok (if ls.isEmpty then [""] else ls.map Line.text) := by
    rw [wrapLine, he]
    rfl
  have hsolid : (ls.map Line.text).flatMap (fun s ↦ solid s.toList) = solid line := by
    rw [Line.solid_flatten, hr.visible_eq]
    simp only [Line.visible_nil, List.nil_append]
    rw [Line.map_fst_visible, Line.text_line, hjoin, String.toList_ofList]
  cases ls with
  | nil => exact ⟨[""], hwrap, by simp, hsolid⟩
  | cons l ls => exact ⟨_, hwrap, by simp, hsolid⟩

theorem solid_of_shows {lines : List (List Char)} {parts : List (List String)}
    (h : List.Forall₂ Shows lines parts) :
    parts.flatten.flatMap (fun s ↦ solid s.toList) = lines.flatMap solid := by
  induction h with
  | nil => rfl
  | cons hs _ ih => rw [List.flatten_cons, List.flatMap_append, hs.2, ih, List.flatMap_cons]

/-- Wrapping a label does not fail. It gives lines for each line of the label, at least one and none
with a line feed in it, and their characters other than spaces are those of the label. -/
theorem exists_wrapLabel (s : Settings) (text : String) :
    ∃ parts : List (List String), s.wrapLabel text = .ok parts.flatten ∧
      List.Forall₂ Shows (Text.lines text.toList) parts ∧
      (∀ line ∈ parts.flatten, '\n' ∉ line.toList) ∧
      parts.flatten.flatMap (fun line ↦ solid line.toList) =
        (Text.lines text.toList).flatMap solid := by
  obtain ⟨parts, he, hs⟩ := exists_mapM_eq_ok (R := Shows)
    fun line hline ↦ s.exists_wrapLine (Text.not_mem_of_mem_lines hline)
  have hsolid := solid_of_shows hs
  refine ⟨parts, ?_, hs, fun line hline hfeed ↦ ?_, hsolid⟩
  · rw [wrapLabel, he]
    rfl
  · have hn : '\n' ≠ ' ' := by decide
    have hmem : '\n' ∈ parts.flatten.flatMap fun line ↦ solid line.toList :=
      List.mem_flatMap.2 ⟨line, hline, (Text.mem_solid_iff hn).2 hfeed⟩
    rw [hsolid] at hmem
    obtain ⟨l, hl, hfeed⟩ := List.mem_flatMap.1 hmem
    exact Text.not_mem_of_mem_lines hl ((Text.mem_solid_iff hn).1 hfeed)

end Settings

end DiagramText
