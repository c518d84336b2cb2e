import DiagramText.Proofs.WrapSteps

namespace DiagramText.Wrapping

variable {seg : Segmenter} {fits : Line → Bool} {s t u : Wrapping} {closed ls : List Line} {n : Nat}

theorem weight_requeue_cut (seg : Segmenter) (fits : Line → Bool) {w : Word} (h : w.content ≠ "")
    (ws : List Word) : weight (requeue (w.cut seg fits).2 ws) < weight (w :: ws) := by
  have hlength := Word.length_cut_lt seg fits h
  unfold requeue
  split
  · simp only [weight]
    omega
  · simp only [weight]
    omega

/-- The steps that the words to place and the line in the making may still take. -/
def potential (s : Wrapping) : Nat :=
  2 * weight s.queue + if s.current = [] then 0 else 1

theorem Places.potential_lt (h : Places seg fits s closed t) : t.potential < s.potential := by
  cases h with
  | @join current queue ws joined w ht _ =>
    obtain ⟨-, hlt⟩ := next?_weight ht.next?_eq
    simp only [potential]
    split <;> split <;> omega
  | @close current queue ws joined w ht _ hc =>
    -- The word is put back, but the line in the making is closed.
    obtain ⟨hle, -⟩ := next?_weight ht.next?_eq
    simp only [potential, if_neg hc, if_pos]
    omega
  | @cut queue ws joined w ht _ hw =>
    obtain ⟨hle, -⟩ := next?_weight ht.next?_eq
    have hcut := weight_requeue_cut seg fits hw ws
    simp only [potential, if_pos]
    omega
  | @drop queue ws joined w ht _ _ =>
    obtain ⟨-, hlt⟩ := next?_weight ht.next?_eq
    simp only [potential, if_pos]
    omega

/-- A number of steps, and the lines that they close. -/
inductive Reaches (seg : Segmenter) (fits : Line → Bool) :
    Nat → Wrapping → List Line → Wrapping → Prop
  | zero (s : Wrapping) : Reaches seg fits 0 s [] s
  | cons {n : Nat} {s t u : Wrapping} {closed ls : List Line} :
      s.step seg fits = some (closed, t) → Reaches seg fits n t ls u →
      Reaches seg fits (n + 1) s (closed ++ ls) u

theorem Reaches.add_potential_le (h : Reaches seg fits n s ls u) :
    n + u.potential ≤ s.potential := by
  induction h with
  | zero s => exact Nat.le_of_eq (Nat.zero_add _)
  | cons hs _ ih =>
    have hlt := (places_of_step hs).potential_lt
    omega

def unfinished (s : Wrapping) : List Line :=
  if s.current = [] then [] else [s.current]

theorem lines_of_step (h : s.step seg fits = some (closed, t)) :
    lines seg fits s = closed ++ lines seg fits t := by
  rw [lines]
  split
  · rename_i h'
    obtain ⟨rfl, rfl⟩ := Prod.mk.inj (Option.some.inj (h'.symm.trans h))
    rfl
  · rename_i h'
    cases h'.symm.trans h

theorem lines_of_end (h : s.step seg fits = none) : lines seg fits s = s.unfinished := by
  rw [lines]
  split
  · rename_i h'
    cases h'.symm.trans h
  · rfl

theorem Reaches.lines_eq (h : Reaches seg fits n s ls u) :
    lines seg fits s = ls ++ lines seg fits u := by
  induction h with
  | zero s => rfl
  | cons hs _ ih => rw [lines_of_step hs, ih, List.append_assoc]

theorem exists_reaches_end (seg : Segmenter) (fits : Line → Bool) (s : Wrapping) :
    ∃ n ls u, Reaches seg fits n s ls u ∧ u.step seg fits = none := by
  induction hm : s.potential using Nat.strongRecOn generalizing s with
  | ind m ih =>
    cases hs : s.step seg fits with
    | none => exact ⟨0, [], s, .zero s, hs⟩
    | some out =>
      obtain ⟨closed, t⟩ := out
      have hlt := (places_of_step hs).potential_lt
      obtain ⟨n, ls, u, hr, hu⟩ := ih t.potential (hm ▸ hlt) t rfl
      exact ⟨n + 1, closed ++ ls, u, .cons hs hr, hu⟩

section Invariant

variable {I : Wrapping → Prop} {P : Line → Prop}
variable (hstep : ∀ {s t : Wrapping} {closed : List Line},
  s.step seg fits = some (closed, t) → I s → I t ∧ ∀ l ∈ closed, P l)
include hstep

theorem Reaches.keeps (h : Reaches seg fits n s ls u) (hs : I s) : I u ∧ ∀ l ∈ ls, P l := by
  induction h with
  | zero s => exact ⟨hs, nofun⟩
  | cons hst _ ih =>
    obtain ⟨ht, hclosed⟩ := hstep hst hs
    obtain ⟨hu, hls⟩ := ih ht
    exact ⟨hu, List.forall_mem_append.2 ⟨hclosed, hls⟩⟩

/-- What holds of the lines that steps close, and of the last line in the making, holds of all lines
that come out. -/
theorem forall_lines (hcurrent : ∀ {s : Wrapping}, I s → P s.current) (hs : I s) :
    ∀ l ∈ lines seg fits s, P l := by
  obtain ⟨n, ls, u, hr, hu⟩ := exists_reaches_end seg fits s
  obtain ⟨hlast, hls⟩ := hr.keeps hstep hs
  rw [hr.lines_eq, lines_of_end hu]
  refine List.forall_mem_append.2 ⟨hls, ?_⟩
  unfold unfinished
  split
  · nofun
  · exact List.forall_mem_singleton.2 (hcurrent hlast)

end Invariant

/-- However the words are and whatever fits, no run takes more steps than twice the number of the
words and their characters, and so there is one that ends. It ends when all words are placed, and the
lines it closed are those that come out, before the one in the making. -/
theorem reaches_end (seg : Segmenter) (fits : Line → Bool) (line : Line) :
    (∀ n ls s, Reaches seg fits n ⟨[], line⟩ ls s → n ≤ 2 * weight line) ∧
    ∃ n ls s, Reaches seg fits n ⟨[], line⟩ ls s ∧ s.step seg fits = none ∧ s.queue = [] ∧
      lines seg fits ⟨[], line⟩ = ls ++ s.unfinished := by
  constructor
  · intro n ls s h
    have hle := h.add_potential_le
    have hstart : potential ⟨[], line⟩ = 2 * weight line := by simp [potential]
    omega
  · obtain ⟨n, ls, s, hr, hs⟩ := exists_reaches_end seg fits ⟨[], line⟩
    refine ⟨n, ls, s, hr, hs, queue_eq_nil_of_step hs, ?_⟩
    rw [hr.lines_eq, lines_of_end hs]

end DiagramText.Wrapping
