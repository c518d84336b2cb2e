namespace DiagramText.Unicode

/-- A rule for boundaries that is read from left to right: a state sums up the piece so far. -/
structure Boundaries (σ : Type) where
  start : Char → σ
  /-- Whether a character, with the text after it in view, goes on with the piece. -/
  joins : σ → Char → List Char → Bool
  next : σ → Char → σ

namespace Boundaries

variable {σ : Type} (b : Boundaries σ)

def cut (s : σ) : List Char → List Char × List (List Char)
  | [] => ([], [])
  | c :: cs =>
    if b.joins s c cs then
      let (piece, more) := cut (b.next s c) cs
      (c :: piece, more)
    else
      let (piece, more) := cut (b.start c) cs
      ([], (c :: piece) :: more)

def pieces : List Char → List (List Char)
  | [] => []
  | c :: cs =>
    let (piece, more) := b.cut (b.start c) cs
    (c :: piece) :: more

theorem cut_flatten (s : σ) (cs : List Char) : (b.cut s cs).1 ++ (b.cut s cs).2.flatten = cs := by
  induction cs generalizing s with
  | nil => rfl
  | cons c cs ih =>
    unfold cut
    split <;> simp [ih]

theorem pieces_flatten (cs : List Char) : (b.pieces cs).flatten = cs := by
  cases cs with
  | nil => rfl
  | cons c cs => simp [pieces, cut_flatten]

theorem ne_nil_of_mem_cut (s : σ) (cs : List Char) : ∀ p ∈ (b.cut s cs).2, p ≠ [] := by
  induction cs generalizing s with
  | nil => simp [cut]
  | cons c cs ih =>
    unfold cut
    split
    · exact ih _
    · intro p hp
      rcases List.mem_cons.1 hp with rfl | hp
      · simp
      · exact ih _ p hp

theorem ne_nil_of_mem_pieces {cs p : List Char} (hp : p ∈ b.pieces cs) : p ≠ [] := by
  cases cs with
  | nil => simp [pieces] at hp
  | cons c cs =>
    rcases List.mem_cons.1 hp with rfl | hp
    · simp
    · exact b.ne_nil_of_mem_cut _ _ p hp

end Boundaries

end DiagramText.Unicode
