import DiagramText.Proofs.WrapSteps
import Mathlib.Data.List.Basic
import Mathlib.Order.Bounds.Defs

namespace DiagramText

variable {seg : Segmenter} {fits : Line → Bool}

namespace Line

def spaced (ws : List Word) : Line :=
  ws.intersperse .joiner

def behindJoiners (ws : List Word) : Line :=
  ws.flatMap fun w ↦ [.joiner, w]

theorem spaced_cons (w : Word) (ws : List Word) : spaced (w :: ws) = w :: behindJoiners ws := by
  induction ws generalizing w with
  | nil => rfl
  | cons v ws ih =>
    have hv : (v :: ws).intersperse .joiner = v :: behindJoiners ws := ih v
    rw [spaced, List.intersperse_cons_cons, hv]
    rfl

theorem spaced_append {us : List Word} (h : us ≠ []) (ws : List Word) :
    spaced (us ++ ws) = spaced us ++ behindJoiners ws := by
  obtain ⟨u, us, rfl⟩ := List.exists_cons_of_ne_nil h
  rw [List.cons_append, spaced_cons, spaced_cons, behindJoiners, List.flatMap_append]
  rfl

theorem spaced_ne_nil {ws : List Word} (h : ws ≠ []) : spaced ws ≠ [] := by
  obtain ⟨w, ws, rfl⟩ := List.exists_cons_of_ne_nil h
  rw [spaced_cons]
  exact List.cons_ne_nil _ _

theorem spaced_append_right (us ws : List Word) : spaced ws <:+ spaced (us ++ ws) := by
  cases ws with
  | nil => exact List.nil_suffix
  | cons w ws =>
    cases us with
    | nil => exact List.suffix_rfl
    | cons u us =>
      rw [spaced_append (List.cons_ne_nil u us), spaced_cons]
      exact ⟨spaced (u :: us) ++ [.joiner], by simp [behindJoiners]⟩

theorem spaced_append_left (us ws : List Word) : spaced us <+: spaced (us ++ ws) := by
  cases us with
  | nil => exact List.nil_prefix
  | cons u us => exact ⟨behindJoiners ws, (spaced_append (List.cons_ne_nil u us) ws).symm⟩

theorem spaced_infix {us ws : List Word} (h : us <:+: ws) : spaced us <:+: spaced ws := by
  obtain ⟨before, after, rfl⟩ := h
  rw [List.append_assoc]
  exact (spaced_append_left us after).isInfix.trans (spaced_append_right before (us ++ after)).isInfix

/-- Every stretch of words from a line that fits does fit. -/
def ClosedUnderInfix (fits : Line → Bool) : Prop :=
  ∀ l m : Line, l ≠ [] → l <:+: m → fits m = true → fits l = true

theorem width_append (l m : Line) : (l ++ m).width = l.width + m.width := by
  induction l with
  | nil => simp [width]
  | cons w l ih => simp [width, ih, Nat.add_assoc]

theorem closedUnderInfix_fitsIn (columns : Nat) : ClosedUnderInfix (fitsIn columns) := by
  rintro l m - ⟨before, after, rfl⟩ h
  simp only [fitsIn, decide_eq_true_eq, width_append] at h ⊢
  omega

/-- Words cut into groups, each of which fits on a line with joiners between its words. -/
structure Layout (fits : Line → Bool) (ws : List Word) (groups : List (List Word)) : Prop where
  flatten : groups.flatten = ws
  ne_nil : ∀ g ∈ groups, g ≠ []
  fits : ∀ g ∈ groups, fits (spaced g) = true

theorem Layout.cons {g ws : List Word} {groups : List (List Word)} (hn : g ≠ [])
    (hf : fits (spaced g) = true) (h : Layout fits ws groups) :
    Layout fits (g ++ ws) (g :: groups) :=
  ⟨by rw [List.flatten_cons, h.flatten], List.forall_mem_cons.2 ⟨hn, h.ne_nil⟩,
    List.forall_mem_cons.2 ⟨hf, h.fits⟩⟩

theorem Layout.tail {g ws : List Word} {groups : List (List Word)} (h : Layout fits ws (g :: groups)) :
    Layout fits groups.flatten groups :=
  ⟨rfl, (List.forall_mem_cons.1 h.ne_nil).2, (List.forall_mem_cons.1 h.fits).2⟩

end Line

namespace Wrapping

open Line (spaced behindJoiners Layout ClosedUnderInfix)

theorem extend_spaced {ws : List Word} (h : ws ≠ []) (w : Word) :
    extend (spaced ws) true w = spaced (ws ++ [w]) := by
  rw [Line.spaced_append h]
  simp [extend, behindJoiners]

theorem Runs.next {current : Line} {j w : Word} {queue : List Word} {ls : List Line}
    (h : Runs seg fits ⟨current, j :: w :: queue⟩ ls) (hc : current ≠ []) (hj : j.isJoiner = true)
    (hw : w.isJoiner = false) (hf : fits [w] = true) :
    fits (extend current true w) = true ∧ Runs seg fits ⟨extend current true w, queue⟩ ls ∨
      fits (extend current true w) = false ∧
        ∃ more, ls = current :: more ∧ Runs seg fits ⟨[w], queue⟩ more := by
  cases hfits : fits (extend current true w) with
  | true => exact .inl ⟨rfl, h.of_accepted (.joined hj) hfits⟩
  | false =>
    obtain ⟨more, rfl, hr⟩ := h.of_closed (.joined hj) hfits hc
    exact .inr ⟨rfl, more, rfl, hr.of_accepted (.bare hw) hf⟩

/-- A group that would have to hold all of a line that fits and the word it does not fit with leaves
that word to the groups after it. -/
theorem suffix_of_rejected (hclosed : ClosedUnderInfix fits) {us g ws rest : List Word} {w : Word}
    (hr : fits (spaced (us ++ [w])) = false) (hg : fits (spaced g) = true)
    (hs : us ++ w :: ws <:+ g ++ rest) : w :: ws <:+ rest := by
  obtain ⟨before, hs⟩ := hs
  rcases List.suffix_or_suffix_of_suffix ⟨before ++ us, by rw [List.append_assoc]; exact hs⟩
    (List.suffix_append g rest) with h | h
  · exact h
  · rcases List.suffix_cons_iff.1 h with rfl | ⟨t, rfl⟩
    · exact List.suffix_rfl
    · have hg' : g = before ++ (us ++ [w]) ++ t := by
        have hsame : g ++ rest = before ++ (us ++ [w]) ++ t ++ rest := by
          rw [← hs]
          simp
        exact List.append_cancel_right hsame
      have hne : spaced (us ++ [w]) ≠ [] := Line.spaced_ne_nil (by simp)
      have hfits := hclosed _ _ hne (Line.spaced_infix ⟨before, t, hg'.symm⟩) hg
      exact absurd hfits (Bool.eq_false_iff.1 hr)

/-- The lines are a layout of the words, and one of these words with others before them has no fewer
groups. -/
theorem Runs.fewest (hclosed : ClosedUnderInfix fits) {us ws : List Word} {ls : List Line}
    (hn : us ≠ []) (hu : fits (spaced us) = true)
    (hw : ∀ w ∈ ws, w.isJoiner = false ∧ fits [w] = true)
    (h : Runs seg fits ⟨spaced us, behindJoiners ws⟩ ls) :
    ∃ groups, ls = groups.map spaced ∧ Layout fits (us ++ ws) groups ∧
      ∀ vs other, us ++ ws <:+ vs → Layout fits vs other → groups.length ≤ other.length := by
  induction ws generalizing us ls with
  | nil =>
    rw [List.append_nil]
    refine ⟨[us], ?_, ?_, fun vs other hs ho ↦ ?_⟩
    · rw [h.eq_of_no_words, if_neg (Line.spaced_ne_nil hn)]
      rfl
    · exact ⟨List.append_nil us, List.forall_mem_singleton.2 hn, List.forall_mem_singleton.2 hu⟩
    · cases other with
      | nil =>
        obtain rfl : vs = [] := ho.flatten.symm
        exact absurd (List.suffix_nil.1 hs) hn
      | cons g rest => exact Nat.succ_le_succ (Nat.zero_le _)
  | cons w ws ih =>
    obtain ⟨⟨hj, hf⟩, hws⟩ := List.forall_mem_cons.1 hw
    have hnext := Runs.next h (Line.spaced_ne_nil hn) rfl hj hf
    rw [extend_spaced hn] at hnext
    rcases hnext with ⟨hfits, hr⟩ | ⟨hrejected, more, rfl, hr⟩
    · have hne : us ++ [w] ≠ [] := by simp
      have hsplit : us ++ [w] ++ ws = us ++ w :: ws := by simp
      have hmore := ih hne hfits hws hr
      rwa [hsplit] at hmore
    · obtain ⟨groups, rfl, hlayout, hmin⟩ := ih (List.cons_ne_nil w []) hf hws hr
      refine ⟨us :: groups, rfl, hlayout.cons hn hu, fun vs other hs ho ↦ ?_⟩
      cases other with
      | nil =>
        obtain rfl : vs = [] := ho.flatten.symm
        simp at hs
      | cons g rest =>
        obtain rfl : g ++ rest.flatten = vs := ho.flatten
        have hg := (List.forall_mem_cons.1 ho.fits).1
        have hsuffix := suffix_of_rejected hclosed hrejected hg hs
        exact Nat.succ_le_succ (hmin _ rest hsuffix ho.tail)

end Wrapping

namespace Line

open Wrapping (Runs exists_runs)

theorem mem_spaced {ws : List Word} {v : Word} (h : v ∈ spaced ws) : v = .joiner ∨ v ∈ ws := by
  cases ws with
  | nil => cases h
  | cons w ws =>
    rw [spaced_cons, behindJoiners] at h
    rcases List.mem_cons.1 h with rfl | h
    · exact .inr List.mem_cons_self
    · obtain ⟨u, hu, hv⟩ := List.mem_flatMap.1 h
      rcases List.mem_cons.1 hv with rfl | hv
      · exact .inl rfl
      · rw [List.mem_singleton.1 hv]
        exact .inr (List.mem_cons_of_mem w hu)

theorem hasLineBreak_eq_false_iff {line : Line} :
    line.hasLineBreak = false ↔ ∀ w ∈ line, '\n' ∉ w.content.toList := by
  simp [hasLineBreak]

theorem hasLineBreak_spaced {ws : List Word} (h : ∀ w ∈ ws, '\n' ∉ w.content.toList) :
    (spaced ws).hasLineBreak = false := by
  refine hasLineBreak_eq_false_iff.2 fun v hv ↦ ?_
  rcases mem_spaced hv with rfl | hv
  · decide
  · exact h v hv

/-- Words that each fit on a line stay whole, and they are laid out in the fewest lines that hold
them in their order. -/
theorem wrap_isLeast (seg : Segmenter) (hclosed : ClosedUnderInfix fits) {ws : List Word}
    (hb : ∀ w ∈ ws, '\n' ∉ w.content.toList) (hj : ∀ w ∈ ws, w.isJoiner = false)
    (hf : ∀ w ∈ ws, fits [w] = true) :
    ∃ ls, (spaced ws).wrap seg fits = .ok ls ∧
      (∃ groups, Layout fits ws groups ∧ ls = groups.map spaced) ∧
      IsLeast {n | ∃ groups, Layout fits ws groups ∧ groups.length = n} ls.length := by
  obtain ⟨ls, he, hr⟩ := exists_runs seg fits (hasLineBreak_spaced hb)
  suffices ∃ groups, ls = groups.map spaced ∧ Layout fits ws groups ∧
      ∀ other, Layout fits ws other → groups.length ≤ other.length by
    obtain ⟨groups, rfl, hlayout, hmin⟩ := this
    refine ⟨_, he, ⟨groups, hlayout, rfl⟩, ⟨groups, hlayout, (List.length_map _).symm⟩, ?_⟩
    rintro n ⟨other, ho, rfl⟩
    rw [List.length_map]
    exact hmin other ho
  cases ws with
  | nil =>
    refine ⟨[], ?_, ⟨rfl, by simp, by simp⟩, fun other _ ↦ Nat.zero_le _⟩
    rw [hr.eq_of_no_words, if_pos rfl]
    rfl
  | cons w ws =>
    rw [spaced_cons] at hr
    have hall := fun v hv ↦ And.intro (hj v hv) (hf v hv)
    obtain ⟨⟨hw, hfits⟩, hws⟩ := List.forall_mem_cons.1 hall
    have hopen : Runs seg fits ⟨spaced [w], behindJoiners ws⟩ ls := hr.of_accepted (.bare hw) hfits
    obtain ⟨groups, hl, hlayout, hmin⟩ :=
      hopen.fewest hclosed (List.cons_ne_nil w []) hfits hws
    exact ⟨groups, hl, hlayout, fun other ho ↦ hmin _ other List.suffix_rfl ho⟩

def teaForTwo : List Word :=
  [⟨"tea", .normal⟩, ⟨"for", .emphasis⟩, ⟨"two", .strong⟩]

theorem wrap_isLeast_teaForTwo :
    ClosedUnderInfix (fitsIn 7) ∧ (∀ w ∈ teaForTwo, '\n' ∉ w.content.toList) ∧
    (∀ w ∈ teaForTwo, w.isJoiner = false) ∧ (∀ w ∈ teaForTwo, fitsIn 7 [w] = true) ∧
    IsLeast {n | ∃ groups, Layout (fitsIn 7) teaForTwo groups ∧ groups.length = n} 2 := by
  have hc := closedUnderInfix_fitsIn 7
  have hb : ∀ w ∈ teaForTwo, '\n' ∉ w.content.toList := by decide
  have hj : ∀ w ∈ teaForTwo, w.isJoiner = false := by decide
  have hf : ∀ w ∈ teaForTwo, fitsIn 7 [w] = true := by decide +kernel
  obtain ⟨ls, he, -, hleast⟩ := wrap_isLeast .unicode hc hb hj hf
  have hls : (spaced teaForTwo).wrap .unicode (fitsIn 7) =
      .ok [spaced (teaForTwo.take 2), teaForTwo.drop 2] := by cbv
  obtain rfl := Except.ok.inj (he.symm.trans hls)
  exact ⟨hc, hb, hj, hf, hleast⟩

end Line

end DiagramText
