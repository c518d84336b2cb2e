import DiagramText.Proofs.WrapEnds
import DiagramText.Proofs.WrapFewest
import DiagramText.Proofs.WrapLines
import Mathlib.Data.List.Infix

namespace DiagramText

variable {seg : Segmenter} {fits : Line → Bool}

namespace Word

structure IsSolid (w : Word) : Prop where
  ne_empty : w.content ≠ ""
  no_space : ' ' ∉ w.content.toList
  no_break : '\n' ∉ w.content.toList

theorem isJoiner_eq_false_of_no_space {w : Word} (h : ' ' ∉ w.content.toList) :
    w.isJoiner = false := by
  rw [Bool.eq_false_iff]
  intro hj
  refine h ?_
  rw [isJoiner_iff.1 hj]
  decide

theorem IsSolid.isJoiner_eq_false {w : Word} (h : w.IsSolid) : w.isJoiner = false :=
  isJoiner_eq_false_of_no_space h.no_space

theorem toList_cut (seg : Segmenter) (fits : Line → Bool) (w : Word) :
    w.content.toList = (w.cut seg fits).1.content.toList ++ (w.cut seg fits).2.content.toList := by
  rw [← String.toList_append, cut_content]

theorem IsSolid.isJoiner_cut {w : Word} (h : w.IsSolid) (seg : Segmenter) (fits : Line → Bool) :
    (w.cut seg fits).1.isJoiner = false := by
  refine isJoiner_eq_false_of_no_space fun hc ↦ h.no_space ?_
  rw [toList_cut seg fits w]
  exact List.mem_append_left _ hc

theorem IsSolid.rest_cut {w : Word} (h : w.IsSolid) {seg : Segmenter} {fits : Line → Bool}
    (hn : (w.cut seg fits).2.content ≠ "") : (w.cut seg fits).2.IsSolid := by
  have hmem : ∀ c ∈ (w.cut seg fits).2.content.toList, c ∈ w.content.toList := by
    intro c hc
    rw [toList_cut seg fits w]
    exact List.mem_append_right _ hc
  exact ⟨hn, fun hc ↦ h.no_space (hmem _ hc), fun hc ↦ h.no_break (hmem _ hc)⟩

/-- A visible character that does not fit on a line, not even alone. -/
structure IsTooWide (seg : Segmenter) (fits : Line → Bool) (w : Word) : Prop where
  solid : w.IsSolid
  graphemes : seg.graphemes w.content = [w.content]
  rejected : fits [w] = false

/-- Where a cut leaves nothing of a word that does not fit, the word is a single visible character. -/
theorem graphemes_of_cut_eq_empty {w : Word} (hn : w.content ≠ "") (hf : fits [w] = false)
    (hr : (w.cut seg fits).2.content = "") : seg.graphemes w.content = [w.content] := by
  have hj := seg.join_graphemes w.content
  have hpieces := seg.ne_empty_of_mem_graphemes w.content
  generalize hg : seg.graphemes w.content = pieces at hj hpieces
  have hrest : String.join (pieces.drop (w.cutAt seg fits)) = "" := by rw [← hg]; exact hr
  have hlength : pieces.length ≤ w.cutAt seg fits := by
    by_contra hlt
    obtain ⟨g, more, hd⟩ := List.exists_cons_of_ne_nil fun hd ↦ hlt (List.drop_eq_nil_iff.1 hd)
    rw [hd, String.join_cons, String.append_eq_empty_iff] at hrest
    exact hpieces g (List.mem_of_mem_drop (hd ▸ List.mem_cons_self)) hrest.1
  -- If the pieces were accepted up to the last one, so would be the word.
  have hone : pieces.length ≤ 1 := by
    by_contra hmany
    rw [cutAt, hg] at hlength
    have haccepted := accepts_take_acceptedPieces (n := pieces.length) (by omega)
      (show pieces.length ≤ acceptedPieces (fun s ↦ fits [⟨s, w.style⟩]) "" pieces by omega)
    rw [List.take_length, hj, String.empty_append] at haccepted
    exact absurd haccepted (Bool.eq_false_iff.1 hf)
  cases pieces with
  | nil => exact absurd hj.symm hn
  | cons g more =>
    have hmore : more = [] := List.length_eq_zero_iff.1 (Nat.le_zero.1 (Nat.le_of_succ_le_succ hone))
    rw [← hj, hmore]
    simp

end Word

/-- Words without spaces and joiners by turns, a word being the last. The flag tells whether a word
comes first. -/
inductive Alternates : Bool → List Word → Prop
  | nil : Alternates false []
  | word {w : Word} {ws : List Word} : w.IsSolid → Alternates false ws → Alternates true (w :: ws)
  | joiner {j : Word} {ws : List Word} :
      j.isJoiner = true → Alternates true ws → Alternates false (j :: ws)

namespace Line

def EndsBare (l : Line) : Prop :=
  ∀ w ∈ l.getLast?, w.isJoiner = false

def BeginsBare (l : Line) : Prop :=
  ∀ w ∈ l.head?, w.isJoiner = false

/-- Some word of the line fits behind a joiner, and what is left of a word before it is a visible
character that does not fit on a line. -/
def HasStray (seg : Segmenter) (fits : Line → Bool) (line : Line) : Prop :=
  ∃ before w after, line = before ++ w :: after ∧ w.IsSolid ∧ fits [.joiner, w] = true ∧
    ∃ g, Wrapping.LeftOf before g ∧ Word.IsTooWide seg fits g

/-- Words without spaces, with a single joiner between any two of them. -/
def IsSpaced (line : Line) : Prop :=
  line = [] ∨ Alternates true line

end Line

namespace Wrapping

open Line (EndsBare BeginsBare HasStray IsSpaced)

variable {s t u : Wrapping} {closed ls : List Line} {current line queue ws : List Word}
  {joined : Bool} {w : Word} {n : Nat}

/-- The run comes to a joiner while no line is in the making, and the joiner fits there with the
word behind it. -/
def Strays (seg : Segmenter) (fits : Line → Bool) (s : Wrapping) : Prop :=
  ∃ n ls j w ws, Reaches seg fits n s ls ⟨[], j :: w :: ws⟩ ∧ j.isJoiner = true ∧
    fits [.joiner, w] = true

theorem Strays.of_step (hs : s.step seg fits = some (closed, t)) (h : Strays seg fits t) :
    Strays seg fits s := by
  obtain ⟨n, ls, j, w, ws, hr, hj, hf⟩ := h
  exact ⟨n + 1, closed ++ ls, j, w, ws, .cons hs hr, hj, hf⟩

theorem LeftOf.mono {more : Line} (h : LeftOf line w) (hs : line ⊆ more) : LeftOf more w := by
  obtain ⟨v, hv, hleft⟩ := h
  exact ⟨v, List.cons_subset_cons _ hs hv, hleft⟩

theorem Takes.of_joiner (h : Takes queue joined w ws) (hq : Alternates false queue) :
    joined = true ∧ w.IsSolid ∧ Alternates false ws ∧
      ∃ j, j.isJoiner = true ∧ queue = j :: w :: ws := by
  cases hq with
  | nil => cases h
  | @joiner j _ hj hws =>
    cases hws with
    | word hw hws =>
      obtain ⟨rfl, rfl, rfl⟩ := h.unique (.joined hj)
      exact ⟨rfl, hw, hws, j, hj, rfl⟩

theorem Takes.of_solid {v : Word} (h : Takes (v :: queue) joined w ws) (hv : v.IsSolid) :
    joined = false ∧ w = v ∧ ws = queue :=
  h.unique (.bare hv.isJoiner_eq_false)

/-- What is left of the line: a joiner comes next behind the line in the making, a word where there
is none, but for a joiner that stands behind a character too wide for a line. -/
inductive Tidy (seg : Segmenter) (fits : Line → Bool) (line : Line) : Wrapping → Prop
  | inLine {l : Line} {before q : List Word} : line = before ++ q → l ≠ [] → l.EndsBare →
      Alternates false q → Tidy seg fits line ⟨l, q⟩
  | done : Tidy seg fits line ⟨[], []⟩
  | atWord {before q : List Word} {w : Word} : line = before ++ q → LeftOf before w → w.IsSolid →
      Alternates false q → Tidy seg fits line ⟨[], w :: q⟩
  | atJoiner {before q : List Word} {g : Word} : line = before ++ q → LeftOf before g →
      Word.IsTooWide seg fits g → Alternates false q → Tidy seg fits line ⟨[], q⟩

theorem endsBare_extend (current : Line) (joined : Bool) (hw : w.IsSolid) :
    (extend current joined w).EndsBare := by
  intro v hv
  rw [extend, List.getLast?_concat, Option.mem_some_iff] at hv
  rw [← hv]
  exact hw.isJoiner_eq_false

theorem beginsBare_extend {current : Line} (h : current.BeginsBare) (hn : current ≠ [])
    (joined : Bool) (w : Word) : (extend current joined w).BeginsBare := by
  obtain ⟨v, l, rfl⟩ := List.exists_cons_of_ne_nil hn
  exact h

theorem bare_singleton (hw : w.isJoiner = false) : EndsBare [w] ∧ BeginsBare [w] := by
  constructor
  · rintro v ⟨⟩
    exact hw
  · rintro v ⟨⟩
    exact hw

theorem tidy_requeue {before : List Word} {rest : Word} (hline : line = before ++ ws)
    (hrest : LeftOf before rest) (hsolid : rest.content ≠ "" → rest.IsSolid)
    (hws : Alternates false ws)
    (hwide : rest.content = "" → ∃ g, LeftOf before g ∧ Word.IsTooWide seg fits g) :
    Tidy seg fits line ⟨[], requeue rest ws⟩ := by
  unfold requeue
  split
  · rename_i hn
    exact .atWord hline hrest (hsolid hn) hws
  · rename_i he
    obtain ⟨g, hg, hwide⟩ := hwide (Decidable.not_not.1 he)
    exact .atJoiner hline hg hwide hws

theorem Places.tidy (h : Places seg fits s closed t) (hs : Tidy seg fits line s) :
    Tidy seg fits line t ∧ ∀ l ∈ closed, l.EndsBare := by
  cases h with
  | @join current queue ws joined w ht hf =>
    refine ⟨?_, by simp⟩
    have hn : extend current joined w ≠ [] := by simp [extend]
    cases hs with
    | inLine hline _ _ hq | atJoiner hline _ _ hq =>
      obtain ⟨-, hw, hws, j, -, rfl⟩ := ht.of_joiner hq
      exact .inLine (hline.trans (List.append_assoc _ [j, w] ws).symm) hn (endsBare_extend _ _ hw) hws
    | done => cases ht
    | atWord hline _ hw hq =>
      obtain ⟨-, rfl, rfl⟩ := ht.of_solid hw
      exact .inLine hline hn (endsBare_extend _ _ hw) hq
  | close ht _ hc =>
    cases hs with
    | inLine hline _ he hq =>
      obtain ⟨-, hw, hws, j, -, rfl⟩ := ht.of_joiner hq
      refine ⟨.atWord (hline.trans (List.append_assoc _ [j, _] _).symm) ?_ hw hws,
        List.forall_mem_singleton.2 he⟩
      exact leftOf_of_mem (by simp)
    | done | atWord | atJoiner => exact absurd rfl hc
  | @cut queue ws joined w ht hf hn =>
    cases hs with
    | inLine _ hc => exact absurd rfl hc
    | done => cases ht
    | atWord hline hleft hw hq =>
      obtain ⟨rfl, rfl, rfl⟩ := ht.of_solid hw
      have hwide : (w.cut seg fits).2.content = "" → Word.IsTooWide seg fits w :=
        fun he ↦ ⟨hw, Word.graphemes_of_cut_eq_empty hn hf he, hf⟩
      refine ⟨tidy_requeue hline (hleft.cut seg fits) hw.rest_cut hq fun he ↦ ⟨w, hleft, hwide he⟩, ?_⟩
      exact List.forall_mem_singleton.2 (bare_singleton (hw.isJoiner_cut seg fits)).1
    | @atJoiner before _ g hline hg hwide hq =>
      obtain ⟨-, hw, hws, j, -, rfl⟩ := ht.of_joiner hq
      have hleft : LeftOf (before ++ [j, w]) w := leftOf_of_mem (by simp)
      have hg : LeftOf (before ++ [j, w]) g := hg.mono (List.subset_append_left before [j, w])
      refine ⟨tidy_requeue (hline.trans (List.append_assoc before [j, w] ws).symm)
        (hleft.cut seg fits) hw.rest_cut hws fun _ ↦ ⟨g, hg, hwide⟩, ?_⟩
      exact List.forall_mem_singleton.2 (bare_singleton (hw.isJoiner_cut seg fits)).1
  | drop ht _ hn =>
    cases hs with
    | inLine _ hc => exact absurd rfl hc
    | done => cases ht
    | atWord _ _ hw =>
      obtain ⟨-, rfl, -⟩ := ht.of_solid hw
      exact absurd hn hw.ne_empty
    | atJoiner _ _ _ hq => exact absurd hn (ht.of_joiner hq).2.1.ne_empty

theorem Tidy.isSolid_of_takes (hs : Tidy seg fits line ⟨current, queue⟩)
    (ht : Takes queue joined w ws) : w.IsSolid ∧
      (joined = true → ∃ j, j.isJoiner = true ∧ queue = j :: w :: ws) := by
  cases hs with
  | inLine _ _ _ hq | atJoiner _ _ _ hq =>
    obtain ⟨-, hw, -, hj⟩ := ht.of_joiner hq
    exact ⟨hw, fun _ ↦ hj⟩
  | done => cases ht
  | atWord _ _ hw _ =>
    obtain ⟨rfl, rfl, -⟩ := ht.of_solid hw
    exact ⟨hw, nofun⟩

/-- The run does not stray from here on, and its line begins with no joiner. -/
structure Straight (seg : Segmenter) (fits : Line → Bool) (line : Line) (s : Wrapping) : Prop where
  tidy : Tidy seg fits line s
  beginsBare : s.current.BeginsBare
  not_strays : ¬Strays seg fits s

theorem Places.beginsBare (h : Places seg fits s closed t) (hs : Straight seg fits line s) :
    t.current.BeginsBare ∧ ∀ l ∈ closed, l.BeginsBare := by
  cases h with
  | @join current queue ws joined w ht hf =>
    refine ⟨?_, by simp⟩
    obtain ⟨hw, hjoined⟩ := hs.tidy.isSolid_of_takes ht
    by_cases hc : current = []
    · subst hc
      cases joined with
      | false => exact (bare_singleton hw.isJoiner_eq_false).2
      | true =>
        obtain ⟨j, hj, rfl⟩ := hjoined rfl
        exact absurd ⟨0, [], j, w, ws, .zero _, hj, hf⟩ hs.not_strays
    · exact beginsBare_extend hs.beginsBare hc joined w
  | close => exact ⟨nofun, List.forall_mem_singleton.2 hs.beginsBare⟩
  | cut ht =>
    have hcut := (hs.tidy.isSolid_of_takes ht).1.isJoiner_cut seg fits
    exact ⟨nofun, List.forall_mem_singleton.2 (bare_singleton hcut).2⟩
  | drop => exact ⟨nofun, nofun⟩

theorem Tidy.endsBare (hs : Tidy seg fits line s) : s.current.EndsBare := by
  cases hs with
  | inLine _ _ he _ => exact he
  | done | atWord | atJoiner => nofun

theorem endsBare_lines (hs : Tidy seg fits line s) : ∀ l ∈ lines seg fits s, l.EndsBare :=
  forall_lines (fun hstep ht ↦ (places_of_step hstep).tidy ht) Tidy.endsBare hs

theorem Straight.of_step (hstep : s.step seg fits = some (closed, t))
    (hs : Straight seg fits line s) :
    Straight seg fits line t ∧ ∀ l ∈ closed, l.BeginsBare := by
  have hp := places_of_step hstep
  obtain ⟨hcurrent, hclosed⟩ := hp.beginsBare hs
  exact ⟨⟨(hp.tidy hs.tidy).1, hcurrent, fun h ↦ hs.not_strays (h.of_step hstep)⟩, hclosed⟩

theorem beginsBare_lines (hs : Straight seg fits line s) : ∀ l ∈ lines seg fits s, l.BeginsBare :=
  forall_lines Straight.of_step Straight.beginsBare hs

theorem Strays.hasStray (h : Strays seg fits s) (hs : Tidy seg fits line s) :
    HasStray seg fits line := by
  obtain ⟨n, ls, j, w, ws, hr, hj, hf⟩ := h
  obtain ⟨htidy, -⟩ := hr.keeps (fun hstep ht ↦ (places_of_step hstep).tidy ht) hs
  cases htidy with
  | inLine _ hc => exact absurd rfl hc
  | atWord _ _ hw =>
    rw [hw.isJoiner_eq_false] at hj
    cases hj
  | @atJoiner before _ g hline hg hwide hq =>
    obtain ⟨-, hw, -⟩ := (Takes.joined hj).of_joiner hq
    exact ⟨before ++ [j], w, ws, hline.trans (List.append_assoc before [j] _).symm, hw, hf, g,
      hg.mono (List.subset_append_left before [j]), hwide⟩

theorem Runs.exists_current_prefix (h : Runs seg fits s ls) (hc : s.current ≠ []) :
    ∃ l ∈ ls, s.current <+: l := by
  induction h with
  | nil => exact absurd rfl hc
  | last _ => exact ⟨_, List.mem_singleton_self _, List.prefix_rfl⟩
  | step hp _ ih =>
    cases hp with
    | @join current _ _ joined w _ _ =>
      obtain ⟨l, hl, hpre⟩ := ih (by simp [extend])
      refine ⟨l, hl, .trans ?_ hpre⟩
      rw [extend, List.append_assoc]
      exact List.prefix_append current _
    | close => exact ⟨_, List.mem_cons_self, List.prefix_rfl⟩
    | cut | drop => exact absurd rfl hc

theorem Strays.exists_line (h : Strays seg fits s) : ∃ l ∈ lines seg fits s, ¬l.BeginsBare := by
  obtain ⟨n, ls, j, w, ws, hr, hj, hf⟩ := h
  have hline : Runs seg fits ⟨extend [] true w, ws⟩ (lines seg fits ⟨[], j :: w :: ws⟩) :=
    (runs_lines _).of_accepted (.joined hj) hf
  obtain ⟨l, hl, hpre⟩ := hline.exists_current_prefix (List.cons_ne_nil _ _)
  refine ⟨l, ?_, fun hb ↦ ?_⟩
  · rw [hr.lines_eq]
    exact List.mem_append_right ls hl
  · obtain ⟨more, rfl⟩ := hpre
    cases hb .joiner rfl

theorem tidy_of_isSpaced {line : Line} (h : line.IsSpaced) : Tidy seg fits line ⟨[], line⟩ := by
  rcases h with rfl | h
  · exact .done
  · cases h with
    | @word w ws hw hws =>
      have hleft : LeftOf [w] w := leftOf_of_mem (by simp)
      exact .atWord rfl hleft hw hws

end Wrapping

theorem Alternates.no_break {flag : Bool} {ws : List Word} (h : Alternates flag ws) :
    ∀ w ∈ ws, '\n' ∉ w.content.toList := by
  induction h with
  | nil => simp
  | word hw _ ih => exact List.forall_mem_cons.2 ⟨hw.no_break, ih⟩
  | joiner hj _ ih =>
    refine List.forall_mem_cons.2 ⟨?_, ih⟩
    rw [Word.isJoiner_iff.1 hj]
    decide

namespace Line

open Word (IsTooWide)
open Wrapping (Runs Strays exists_runs)

variable {line : Line}

theorem IsSpaced.hasLineBreak (h : line.IsSpaced) : line.hasLineBreak = false := by
  rcases h with rfl | h
  · rfl
  · exact hasLineBreak_eq_false_iff.2 h.no_break

theorem isSpaced_pair {v w : Word} (hv : v.IsSolid) (hw : w.IsSolid) : IsSpaced [v, .joiner, w] :=
  .inr (.word hv (.joiner rfl (.word hw .nil)))

theorem IsSpaced.beginsBare_iff (h : line.IsSpaced) :
    (∀ l ∈ Wrapping.lines seg fits ⟨[], line⟩, l.BeginsBare) ↔ ¬Strays seg fits ⟨[], line⟩ := by
  refine ⟨fun hbare hs ↦ ?_, fun hn ↦ ?_⟩
  · obtain ⟨l, hl, hn⟩ := hs.exists_line
    exact hn (hbare l hl)
  · exact Wrapping.beginsBare_lines ⟨Wrapping.tidy_of_isSpaced h, nofun, hn⟩

theorem wrap_of_isSpaced (h : line.IsSpaced) :
    line.wrap seg fits = .ok (Wrapping.lines seg fits ⟨[], line⟩) :=
  if_neg (Bool.eq_false_iff.1 h.hasLineBreak)

theorem wrap_stray {g w : Word} (hg : IsTooWide seg fits g) (hw : w.IsSolid)
    (hf : fits [.joiner, w] = true) :
    wrap seg fits [g, .joiner, w] = .ok [[g], [.joiner, w]] := by
  obtain ⟨ls, he, hr⟩ := exists_runs seg fits (isSpaced_pair hg.solid hw).hasLineBreak
  obtain ⟨more, rfl, hmore⟩ :=
    hr.of_cut (.bare hg.solid.isJoiner_eq_false) hg.rejected hg.solid.ne_empty
  have hcut : g.cut seg fits = (g, ⟨"", g.style⟩) := Word.cut_of_single hg.graphemes
  have hjoiner : Runs seg fits ⟨[], [.joiner, w]⟩ more := by
    rw [hcut] at hmore
    exact hmore
  have hline := hjoiner.of_accepted (.joined rfl) hf
  rw [he, hcut, hline.eq_of_no_words]
  rfl

/-- Only the ends of words can be too wide, and they can be listed. -/
theorem not_hasStray_of_tails (h : ∀ v ∈ line, ∀ cs ∈ v.content.toList.tails,
    fits [⟨.ofList cs, v.style⟩] = false → seg.graphemes (.ofList cs) ≠ [.ofList cs]) :
    ¬HasStray seg fits line := by
  rintro ⟨before, w, after, rfl, -, -, g, ⟨v, hv, hstyle, start, hcontent⟩, hwide⟩
  have hsuffix : g.content.toList <:+ v.content.toList := by
    rw [hcontent, String.toList_append]
    exact List.suffix_append _ _
  rcases List.mem_cons.1 hv with rfl | hv
  · -- What is left of a joiner is a joiner or nothing.
    have hspace : g.content.toList <:+ [' '] := hsuffix
    rcases List.suffix_cons_iff.1 hspace with he | hnil
    · exact hwide.solid.no_space (he ▸ List.mem_singleton_self ' ')
    · exact hwide.solid.ne_empty (String.toList_eq_nil_iff.1 (List.suffix_nil.1 hnil))
  · have hcut := h v (List.mem_append_left _ hv) g.content.toList ((List.mem_tails _ _).2 hsuffix)
    rw [String.ofList_toList, ← hstyle] at hcut
    exact hcut hwide.rejected hwide.graphemes

/-- No line ends with a joiner. Lines do not begin with one either unless the run strays, and then
one does; it strays only if a character of the line is too wide and a word behind it is not, not even
with the joiner. -/
theorem wrap_beginsBare_iff (seg : Segmenter) (fits : Line → Bool) {line : Line}
    (h : line.IsSpaced) :
    ∃ ls, line.wrap seg fits = .ok ls ∧ (∀ l ∈ ls, l.EndsBare) ∧
      ((∀ l ∈ ls, l.BeginsBare) ↔ ¬Strays seg fits ⟨[], line⟩) ∧
      (¬HasStray seg fits line → ∀ l ∈ ls, l.BeginsBare) := by
  have htidy : Wrapping.Tidy seg fits line ⟨[], line⟩ := Wrapping.tidy_of_isSpaced h
  refine ⟨_, wrap_of_isSpaced h, Wrapping.endsBare_lines htidy, h.beginsBare_iff, fun hn ↦ ?_⟩
  exact h.beginsBare_iff.2 fun hs ↦ hn (hs.hasStray htidy)

/-- A word of more columns than a line has, before a mark of no width. -/
def longWord : Line :=
  [⟨"日日日日日日日日日日日日日日日日日日日日日", .strong⟩, .joiner, ⟨"\u0301", .normal⟩]

theorem wrap_beginsBare_iff_longWord :
    longWord.IsSpaced ∧ fitsIn 40 [⟨"日日日日日日日日日日日日日日日日日日日日日", .strong⟩] = false ∧
    ∃ ls, longWord.wrap .unicode (fitsIn 40) = .ok ls ∧
      ∀ l ∈ ls, l.EndsBare ∧ l.BeginsBare := by
  have hspaced : longWord.IsSpaced :=
    isSpaced_pair ⟨by decide, by decide, by decide⟩ ⟨by decide, by decide, by decide⟩
  have hstray : ¬HasStray .unicode (fitsIn 40) longWord := not_hasStray_of_tails (by decide +kernel)
  obtain ⟨ls, he, hends, -, hbegins⟩ := wrap_beginsBare_iff .unicode (fitsIn 40) hspaced
  exact ⟨hspaced, by decide +kernel, ls, he, fun l hl ↦ ⟨hends l hl, hbegins hstray l hl⟩⟩

/-- Over all lines it takes one character that is too wide, and one word that fits behind a joiner. -/
theorem forall_wrap_beginsBare_iff (seg : Segmenter) (fits : Line → Bool) :
    (∀ line, IsSpaced line → ∃ ls, line.wrap seg fits = .ok ls ∧ ∀ l ∈ ls, l.BeginsBare) ↔
      ∀ g w, IsTooWide seg fits g → w.IsSolid → fits [.joiner, w] = false := by
  refine ⟨fun hbare g w hg hw ↦ ?_, fun hnone line h ↦ ?_⟩
  · rw [Bool.eq_false_iff]
    intro hf
    obtain ⟨ls, he, hl⟩ := hbare _ (isSpaced_pair hg.solid hw)
    rw [wrap_stray hg hw hf] at he
    obtain rfl := Except.ok.inj he
    have hj : Word.joiner.isJoiner = false := hl [.joiner, w] (by simp) .joiner rfl
    cases hj
  · refine ⟨_, wrap_of_isSpaced h, h.beginsBare_iff.2 fun hs ↦ ?_⟩
    obtain ⟨_, w, _, _, hw, hf, g, _, hg⟩ := hs.hasStray (Wrapping.tidy_of_isSpaced h)
    exact absurd hf (Bool.eq_false_iff.1 (hnone g w hg hw))

def zeroWidth : Line :=
  [⟨"日", .normal⟩, .joiner, ⟨"\u0301", .normal⟩]

theorem wrap_beginsBare_overlooks : IsSpaced zeroWidth ∧
    zeroWidth.wrap .unicode (fitsIn 1) =
      .ok [[⟨"日", .normal⟩], [.joiner, ⟨"\u0301", .normal⟩]] ∧
    ¬BeginsBare [.joiner, ⟨"\u0301", .normal⟩] := by
  have hwide : Word.IsSolid ⟨"日", .normal⟩ := ⟨by decide, by decide, by decide⟩
  have hzero : Word.IsSolid ⟨"\u0301", .normal⟩ := ⟨by decide, by decide, by decide⟩
  refine ⟨isSpaced_pair hwide hzero, ?_, fun hb ↦ ?_⟩
  · exact wrap_stray ⟨hwide, by decide +kernel, by decide +kernel⟩ hzero (by decide +kernel)
  · have hj : Word.joiner.isJoiner = false := hb .joiner rfl
    cases hj

end Line

end DiagramText
