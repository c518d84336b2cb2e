import DiagramText.Layout.Segmenter
import DiagramText.Layout.Word

namespace DiagramText

namespace Segmenter

def line (seg : Segmenter) (style : Style) (text : String) : Line :=
  (seg.words text).map fun w ↦ ⟨w, style⟩

end Segmenter

/-- How many pieces can be appended to `used`, one at a time, and be accepted each time. -/
def acceptedPieces (accepts : String → Bool) (used : String) : List String → Nat
  | [] => 0
  | g :: gs => if accepts (used ++ g) then acceptedPieces accepts (used ++ g) gs + 1 else 0

namespace Word

/-- The visible characters of a word that are taken at a cut: those that fit, and always the
first. -/
def cutAt (seg : Segmenter) (fits : Line → Bool) (w : Word) : Nat :=
  max 1 (acceptedPieces (fun s ↦ fits [⟨s, w.style⟩]) "" (seg.graphemes w.content))

def cut (seg : Segmenter) (fits : Line → Bool) (w : Word) : Word × Word :=
  let pieces := seg.graphemes w.content
  let n := w.cutAt seg fits
  (⟨String.join (pieces.take n), w.style⟩, ⟨String.join (pieces.drop n), w.style⟩)

theorem cut_content (seg : Segmenter) (fits : Line → Bool) (w : Word) :
    (w.cut seg fits).1.content ++ (w.cut seg fits).2.content = w.content := by
  simp only [cut]
  rw [← String.join_append, List.take_append_drop, seg.join_graphemes]

theorem length_cut_lt (seg : Segmenter) (fits : Line → Bool) {w : Word} (h : w.content ≠ "") :
    (w.cut seg fits).2.length < w.length := by
  have hc := congrArg String.length (cut_content seg fits w)
  simp only [String.length_append] at hc
  suffices 0 < (w.cut seg fits).1.content.length by
    simp only [length]
    omega
  have hj := seg.join_graphemes w.content
  have hne := seg.ne_empty_of_mem_graphemes w.content
  have hn : 1 ≤ w.cutAt seg fits := Nat.le_max_left ..
  simp only [cut]
  cases hp : seg.graphemes w.content with
  | nil => exact absurd (by simpa [hp] using hj.symm) h
  | cons g gs =>
    obtain ⟨n, hn⟩ := Nat.exists_eq_add_of_le' hn
    have hg : g ≠ "" := hne g (by simp [hp])
    have : 0 < g.length := Nat.pos_of_ne_zero fun h0 ↦ hg (String.length_eq_zero_iff.1 h0)
    simp [hn]
    omega

end Word

/-- A line in the making and the words that are still to be placed. -/
structure Wrapping where
  current : Line
  queue : List Word

namespace Wrapping

/-- The next word to place, whether a joiner stands before it, and the words after it. A joiner at
the very end stands before a joiner. -/
def next? : List Word → Option (Bool × Word × List Word)
  | [] => none
  | [w] => some (if w.isJoiner then (true, .joiner, []) else (false, w, []))
  | w :: v :: ws => some (if w.isJoiner then (true, v, ws) else (false, w, v :: ws))

def extend (current : Line) (joined : Bool) (w : Word) : Line :=
  current ++ (if joined then [.joiner] else []) ++ [w]

/-- The lines that are closed when the next word is placed, and what is left to do. The word joins
the line if it fits; a line that it does not fit is closed, the joiner is lost and the word waits for
a line of its own; there it is cut. -/
def step (seg : Segmenter) (fits : Line → Bool) (s : Wrapping) : Option (List Line × Wrapping) :=
  (next? s.queue).map fun (joined, w, ws) ↦
    if fits (extend s.current joined w) then ([], ⟨extend s.current joined w, ws⟩)
    else if s.current ≠ [] then ([s.current], ⟨[], w :: ws⟩)
    else if w.content ≠ "" then
      let (first, rest) := w.cut seg fits
      ([[first]], ⟨[], if rest.content ≠ "" then rest :: ws else ws⟩)
    else ([], ⟨[], ws⟩)

def weight : List Word → Nat
  | [] => 0
  | w :: ws => w.length + 1 + weight ws

theorem next?_weight {queue ws : List Word} {joined : Bool} {w : Word}
    (h : next? queue = some (joined, w, ws)) :
    weight (w :: ws) ≤ weight queue ∧ weight ws < weight queue := by
  match queue with
  | [] => cases h
  | [v] =>
    by_cases hv : v.isJoiner
    · have hc : v.content = " " := Word.isJoiner_iff.1 hv
      simp only [next?, hv, ↓reduceIte, Option.some.injEq, Prod.mk.injEq] at h
      obtain ⟨-, rfl, rfl⟩ := h
      simp [weight, hc, Word.length, Word.joiner]
    · simp only [next?, hv, Bool.false_eq_true, ↓reduceIte, Option.some.injEq, Prod.mk.injEq] at h
      obtain ⟨-, rfl, rfl⟩ := h
      simp [weight]
  | v :: u :: us =>
    by_cases hv : v.isJoiner
    · simp only [next?, hv, ↓reduceIte, Option.some.injEq, Prod.mk.injEq] at h
      obtain ⟨-, rfl, rfl⟩ := h
      simp only [weight]
      omega
    · simp only [next?, hv, Bool.false_eq_true, ↓reduceIte, Option.some.injEq, Prod.mk.injEq] at h
      obtain ⟨-, rfl, rfl⟩ := h
      simp only [weight]
      omega

/-- A step makes the words to place smaller, or it closes the line in the making and leaves them. -/
theorem step_decreases {seg : Segmenter} {fits : Line → Bool} {s t : Wrapping} {closed : List Line}
    (h : s.step seg fits = some (closed, t)) :
    Prod.Lex (· < ·) (· < ·) (weight t.queue, t.current.length) (weight s.queue, s.current.length) := by
  obtain ⟨⟨joined, w, ws⟩, hn, he⟩ := Option.map_eq_some_iff.1 h
  obtain ⟨hle, hlt⟩ := next?_weight hn
  dsimp only at he
  split at he
  · obtain ⟨-, rfl⟩ := Prod.mk.inj he
    exact .left _ _ hlt
  · split at he
    · rename_i hc
      obtain ⟨-, rfl⟩ := Prod.mk.inj he
      rcases Nat.lt_or_eq_of_le hle with hw | hw
      · exact .left _ _ hw
      · dsimp only
        rw [hw]
        exact .right _ (List.length_pos_iff.2 hc)
    · split at he
      · rename_i hw
        obtain ⟨-, rfl⟩ := Prod.mk.inj he
        refine .left _ _ ?_
        have := Word.length_cut_lt seg fits hw
        simp only [weight] at hle hlt ⊢
        split
        · simp only [weight]; omega
        · exact hlt
      · obtain ⟨-, rfl⟩ := Prod.mk.inj he
        exact .left _ _ hlt

def lines (seg : Segmenter) (fits : Line → Bool) (s : Wrapping) : List Line :=
  match h : s.step seg fits with
  | some (closed, t) =>
    have := step_decreases h
    closed ++ lines seg fits t
  | none => if s.current = [] then [] else [s.current]
termination_by (weight s.queue, s.current.length)
decreasing_by exact this

end Wrapping

inductive LayoutError
  | lineBreakInWord
  deriving DecidableEq, Repr

namespace LayoutError

def message : LayoutError → String
  | lineBreakInWord => "split_line_to_fit_width does not support newlines in the line"

end LayoutError

namespace Line

def hasLineBreak (line : Line) : Bool :=
  line.any fun w ↦ w.content.toList.contains '\n'

def wrap (seg : Segmenter) (fits : Line → Bool) (line : Line) : Except LayoutError (List Line) :=
  if line.hasLineBreak then .error .lineBreakInWord
  else .ok (Wrapping.lines seg fits ⟨[], line⟩)

end Line

end DiagramText
