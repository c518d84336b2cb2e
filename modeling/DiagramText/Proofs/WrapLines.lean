import DiagramText.Proofs.Segments
import DiagramText.Proofs.WrapSteps

namespace DiagramText

variable {seg : Segmenter} {fits : Line → Bool}

namespace Word

/-- The characters other than spaces, in the style of the word. -/
def visible (w : Word) : List (Char × Style) :=
  (w.content.toList.filter fun c ↦ c ≠ ' ').map fun c ↦ (c, w.style)

theorem visible_of_isJoiner {w : Word} (h : w.isJoiner = true) : w.visible = [] := by
  simp [visible, isJoiner_iff.1 h]

theorem visible_of_content_eq_empty {w : Word} (h : w.content = "") : w.visible = [] := by
  simp [visible, h]

theorem visible_cut (seg : Segmenter) (fits : Line → Bool) (w : Word) :
    (w.cut seg fits).1.visible ++ (w.cut seg fits).2.visible = w.visible := by
  have hc := congrArg String.toList (cut_content seg fits w)
  rw [String.toList_append] at hc
  rw [visible, visible, visible, ← hc, List.filter_append, List.map_append]
  rfl

end Word

theorem accepts_take_acceptedPieces {accepts : String → Bool} {used : String} {gs : List String}
    {n : Nat} (h0 : 0 < n) (hn : n ≤ acceptedPieces accepts used gs) :
    accepts (used ++ String.join (gs.take n)) = true := by
  induction gs generalizing used n with
  | nil =>
    simp only [acceptedPieces] at hn
    omega
  | cons g gs ih =>
    simp only [acceptedPieces] at hn
    split at hn
    · rename_i ha
      obtain ⟨m, rfl⟩ := Nat.exists_eq_add_of_le' h0
      cases m with
      | zero => simpa using ha
      | succ m =>
        have hm : m + 1 ≤ acceptedPieces accepts (used ++ g) gs := by omega
        simpa [String.append_assoc] using ih (Nat.succ_pos m) hm
    · omega

theorem Word.cut_of_rejected {w : Word} {g : String} {gs : List String}
    (hg : seg.graphemes w.content = g :: gs) (h : fits [⟨g, w.style⟩] = false) :
    (w.cut seg fits).1 = ⟨g, w.style⟩ := by
  simp [cut, cutAt, hg, acceptedPieces, h]

theorem Word.cut_of_single {w : Word} (hg : seg.graphemes w.content = [w.content]) :
    w.cut seg fits = (w, ⟨"", w.style⟩) := by
  have hn : 1 ≤ w.cutAt seg fits := Nat.le_max_left ..
  obtain ⟨n, hn⟩ := Nat.exists_eq_add_of_le' hn
  simp [cut, hg, hn]

theorem Segmenter.graphemes_of_length_one (seg : Segmenter) {s : String} (h : s.length = 1) :
    seg.graphemes s = [s] := by
  have hjoin := seg.join_graphemes s
  have hpieces := seg.ne_empty_of_mem_graphemes s
  generalize seg.graphemes s = pieces at hjoin hpieces
  have hpos {g : String} (hg : g ∈ pieces) : 0 < g.length :=
    Nat.pos_of_ne_zero fun h0 ↦ hpieces g hg (String.length_eq_zero_iff.1 h0)
  cases pieces with
  | nil => simp [← hjoin] at h
  | cons g gs =>
    cases gs with
    | nil => rw [← hjoin]; simp
    | cons g' gs =>
      have hg : 0 < g.length := hpos List.mem_cons_self
      have hg' : 0 < g'.length := hpos (List.mem_cons_of_mem g List.mem_cons_self)
      simp only [← hjoin, String.join_cons, String.length_append] at h
      omega

theorem Word.cut_of_isJoiner {j : Word} (h : j.isJoiner = true) :
    j.cut seg fits = (j, ⟨"", j.style⟩) :=
  cut_of_single (seg.graphemes_of_length_one (by rw [isJoiner_iff.1 h]; rfl))

/-- Where a word is cut, its beginning fits, or it is a single visible character that does not. -/
theorem Word.fits_cut (seg : Segmenter) (fits : Line → Bool) {w : Word} (h : w.content ≠ "") :
    fits [(w.cut seg fits).1] = true ∨
      fits [(w.cut seg fits).1] = false ∧
        (seg.graphemes w.content).head? = some (w.cut seg fits).1.content := by
  cases hg : seg.graphemes w.content with
  | nil =>
    have hj := seg.join_graphemes w.content
    rw [hg] at hj
    exact absurd hj.symm h
  | cons g gs =>
    cases hf : fits [⟨g, w.style⟩] with
    | false =>
      rw [cut_of_rejected hg hf]
      exact .inr ⟨hf, rfl⟩
    | true =>
      left
      have hpos : 0 < acceptedPieces (fun s ↦ fits [⟨s, w.style⟩]) "" (seg.graphemes w.content) := by
        simp [hg, acceptedPieces, hf]
      have ha := accepts_take_acceptedPieces hpos (Nat.le_refl _)
      rw [String.empty_append] at ha
      have hn : w.cutAt seg fits =
          acceptedPieces (fun s ↦ fits [⟨s, w.style⟩]) "" (seg.graphemes w.content) :=
        Nat.max_eq_right hpos
      rw [cut, hn]
      exact ha

namespace Line

def visible (line : Line) : List (Char × Style) :=
  line.flatMap Word.visible

@[simp] theorem visible_nil : visible [] = [] := rfl

@[simp] theorem visible_cons (w : Word) (ws : List Word) :
    visible (w :: ws) = w.visible ++ visible ws := List.flatMap_cons

@[simp] theorem visible_append (l m : Line) : visible (l ++ m) = visible l ++ visible m :=
  List.flatMap_append

end Line

namespace Wrapping

open Line (visible)

variable {s t : Wrapping} {closed ls : List Line} {queue ws : List Word} {joined : Bool} {w : Word}

theorem Takes.visible_eq (h : Takes queue joined w ws) : visible queue = w.visible ++ visible ws := by
  cases h with
  | bare _ => rw [Line.visible_cons]
  | joined hj => rw [Line.visible_cons, Line.visible_cons, Word.visible_of_isJoiner hj, List.nil_append]
  | lone hj =>
    rw [Line.visible_cons, Word.visible_of_isJoiner hj, Word.visible_of_isJoiner rfl]

theorem visible_extend (current : Line) (joined : Bool) (w : Word) :
    visible (extend current joined w) = visible current ++ w.visible := by
  cases joined with
  | false => simp [extend]
  | true => simp [extend, Word.visible_of_isJoiner (w := .joiner) rfl]

theorem visible_requeue (rest : Word) (ws : List Word) :
    visible (requeue rest ws) = rest.visible ++ visible ws := by
  unfold requeue
  split
  · rw [Line.visible_cons]
  · rename_i h
    rw [Word.visible_of_content_eq_empty (Decidable.not_not.1 h), List.nil_append]

theorem Places.visible_eq (h : Places seg fits s closed t) :
    visible closed.flatten ++ (visible t.current ++ visible t.queue) =
      visible s.current ++ visible s.queue := by
  cases h with
  | join ht _ => simp [visible_extend, ht.visible_eq]
  | close ht _ _ => simp [ht.visible_eq]
  | @cut queue ws joined w ht _ _ =>
    rw [ht.visible_eq, visible_requeue, ← Word.visible_cut seg fits w]
    simp
  | drop ht _ hw => simp [ht.visible_eq, Word.visible_of_content_eq_empty hw]

theorem Runs.visible_eq (h : Runs seg fits s ls) :
    visible ls.flatten = visible s.current ++ visible s.queue := by
  induction h with
  | nil => rfl
  | last _ => simp
  | step hp _ ih => rw [List.flatten_append, Line.visible_append, ih, hp.visible_eq]

/-- The word is what is left of a word of the line, or of a joiner. -/
def LeftOf (line : Line) (w : Word) : Prop :=
  ∃ v ∈ Word.joiner :: line, w.style = v.style ∧ ∃ before, v.content = before ++ w.content

theorem leftOf_of_mem {line : Line} (h : w ∈ Word.joiner :: line) : LeftOf line w :=
  ⟨w, h, rfl, "", by simp⟩

theorem LeftOf.cut {line : Line} (h : LeftOf line w) (seg : Segmenter) (fits : Line → Bool) :
    LeftOf line (w.cut seg fits).2 := by
  obtain ⟨v, hv, hs, before, hc⟩ := h
  refine ⟨v, hv, hs, before ++ (w.cut seg fits).1.content, ?_⟩
  rw [String.append_assoc, Word.cut_content, hc]

theorem Takes.leftOf {line : Line} (h : Takes queue joined w ws) (hq : ∀ v ∈ queue, LeftOf line v) :
    LeftOf line w ∧ ∀ v ∈ ws, LeftOf line v :=
  h.forall_mem (leftOf_of_mem (List.mem_cons_self ..)) hq

/-- A line in the making holds what fits, and the words to place are left of the line. -/
structure Sound (fits : Line → Bool) (line : Line) (s : Wrapping) : Prop where
  current : s.current = [] ∨ fits s.current = true
  queue : ∀ v ∈ s.queue, LeftOf line v

theorem Places.sound {line : Line} (h : Places seg fits s closed t) (hs : Sound fits line s) :
    Sound fits line t := by
  cases h with
  | join ht hf => exact ⟨.inr hf, (ht.leftOf hs.queue).2⟩
  | close ht _ _ => exact ⟨.inl rfl, List.forall_mem_cons.2 (ht.leftOf hs.queue)⟩
  | cut ht _ _ =>
    obtain ⟨hw, hws⟩ := ht.leftOf hs.queue
    exact ⟨.inl rfl, forall_mem_requeue (hw.cut seg fits) hws⟩
  | drop ht _ _ => exact ⟨.inl rfl, (ht.leftOf hs.queue).2⟩

/-- The word is the first visible character of what is left of a word of the line, or of a joiner,
and it does not fit even on a line of its own. -/
structure Forced (seg : Segmenter) (fits : Line → Bool) (line : Line) (w : Word) : Prop where
  rejected : fits [w] = false
  first : ∃ v, LeftOf line v ∧ w.style = v.style ∧ (seg.graphemes v.content).head? = some w.content

theorem Places.fits_or_forced {line : Line} (h : Places seg fits s closed t) (hs : Sound fits line s) :
    ∀ l ∈ closed, l ≠ [] ∧ (fits l = true ∨ ∃ w, l = [w] ∧ Forced seg fits line w) := by
  cases h with
  | join _ _ | drop _ _ _ => simp
  | close _ _ hc =>
    rw [List.forall_mem_singleton]
    exact ⟨hc, .inl (hs.current.resolve_left hc)⟩
  | @cut queue ws joined w ht _ hw =>
    rw [List.forall_mem_singleton]
    refine ⟨List.cons_ne_nil _ _, (Word.fits_cut seg fits hw).imp_right fun ⟨hr, hg⟩ ↦ ?_⟩
    exact ⟨_, rfl, hr, w, (ht.leftOf hs.queue).1, rfl, hg⟩

theorem Runs.fits_or_forced {line : Line} (h : Runs seg fits s ls) (hs : Sound fits line s) :
    ∀ l ∈ ls, l ≠ [] ∧ (fits l = true ∨ ∃ w, l = [w] ∧ Forced seg fits line w) := by
  induction h with
  | nil => simp
  | last hc =>
    rw [List.forall_mem_singleton]
    exact ⟨hc, .inl (hs.current.resolve_left hc)⟩
  | step hp _ ih => exact List.forall_mem_append.2 ⟨hp.fits_or_forced hs, ih (hp.sound hs)⟩

theorem Forced.graphemes_eq {line : Line} (h : Forced seg fits line w) (hk : seg.KeepsPieces) :
    seg.graphemes w.content = [w.content] := by
  obtain ⟨v, -, -, hg⟩ := h.first
  exact hk v.content w.content (List.mem_of_head? hg)

end Wrapping

namespace Line

open Wrapping (Forced exists_runs leftOf_of_mem)

/-- No line is empty, and each of them fits or is a single visible character that does not. -/
theorem wrap_fits_or_forced (seg : Segmenter) (fits : Line → Bool) {line : Line}
    (h : line.hasLineBreak = false) :
    ∃ ls, line.wrap seg fits = .ok ls ∧ ∀ l ∈ ls, l ≠ [] ∧
      (fits l = true ∨ ∃ w, l = [w] ∧ Forced seg fits line w ∧
        (seg.KeepsPieces → seg.graphemes w.content = [w.content])) := by
  obtain ⟨ls, he, hr⟩ := exists_runs seg fits h
  refine ⟨ls, he, fun l hl ↦ ?_⟩
  obtain ⟨hn, hf⟩ := hr.fits_or_forced
    ⟨.inl rfl, fun v hv ↦ leftOf_of_mem (List.mem_cons_of_mem Word.joiner hv)⟩ l hl
  exact ⟨hn, hf.imp_right fun ⟨w, hw, hforced⟩ ↦ ⟨w, hw, hforced, hforced.graphemes_eq⟩⟩

def wideLine : Line :=
  [⟨"日本", .strong⟩, .joiner, ⟨"a", .normal⟩]

theorem wrap_fits_or_forced_wideLine :
    wideLine.hasLineBreak = false ∧
    ∃ ls, wideLine.wrap .unicode (fitsIn 1) = .ok ls ∧ ∀ l ∈ ls, l ≠ [] ∧
      (fitsIn 1 l = true ∨ ∃ w, l = [w] ∧ fitsIn 1 [w] = false ∧
        Segmenter.unicode.graphemes w.content = [w.content]) := by
  have hb : wideLine.hasLineBreak = false := by decide
  obtain ⟨ls, he, hl⟩ := wrap_fits_or_forced .unicode (fitsIn 1) hb
  refine ⟨hb, ls, he, fun l hm ↦ ⟨(hl l hm).1, (hl l hm).2.imp_right ?_⟩⟩
  rintro ⟨w, hw, hf, hg⟩
  exact ⟨w, hw, hf.rejected, hg Segmenter.keepsPieces_unicode⟩

/-- Nothing that can be seen is lost, doubled, moved or given another style. -/
theorem visible_wrap (seg : Segmenter) (fits : Line → Bool) {line : Line}
    (h : line.hasLineBreak = false) :
    ∃ ls, line.wrap seg fits = .ok ls ∧ visible ls.flatten = visible line := by
  obtain ⟨ls, he, hr⟩ := exists_runs seg fits h
  exact ⟨ls, he, hr.visible_eq⟩

theorem visible_wrap_wideLine :
    wideLine.hasLineBreak = false ∧
    ∃ ls, wideLine.wrap .unicode (fitsIn 1) = .ok ls ∧
      visible ls.flatten = [('日', .strong), ('本', .strong), ('a', .normal)] := by
  have hb : wideLine.hasLineBreak = false := by decide
  obtain ⟨ls, he, hv⟩ := visible_wrap .unicode (fitsIn 1) hb
  exact ⟨hb, ls, he, hv.trans (by decide)⟩

end Line

end DiagramText
