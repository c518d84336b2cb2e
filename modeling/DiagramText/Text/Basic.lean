namespace DiagramText.Text

def byteSize : List Char → Nat
  | [] => 0
  | c :: cs => c.utf8Size + byteSize cs

@[simp] theorem byteSize_nil : byteSize [] = 0 := rfl

@[simp] theorem byteSize_cons (c : Char) (cs : List Char) :
    byteSize (c :: cs) = c.utf8Size + byteSize cs := rfl

@[simp] theorem byteSize_append (as bs : List Char) :
    byteSize (as ++ bs) = byteSize as + byteSize bs := by
  induction as with
  | nil => simp
  | cons a as ih => simp [ih, Nat.add_assoc]

@[simp] theorem byteSize_reverse (cs : List Char) : byteSize cs.reverse = byteSize cs := by
  induction cs with
  | nil => rfl
  | cons c cs ih => simp [ih, Nat.add_comm]

theorem byteSize_pos {cs : List Char} (h : cs ≠ []) : 0 < byteSize cs := by
  cases cs with
  | nil => exact absurd rfl h
  | cons c cs => have := c.utf8Size_pos; simp; omega

def after? : List Char → List Char → Option (List Char)
  | [], cs => some cs
  | _ :: _, [] => none
  | m :: ms, c :: cs => if m = c then after? ms cs else none

theorem after?_eq_some_iff {mark cs rest : List Char} :
    after? mark cs = some rest ↔ cs = mark ++ rest := by
  induction mark generalizing cs with
  | nil => simp [after?, eq_comm]
  | cons m ms ih =>
    cases cs with
    | nil => simp [after?]
    | cons c cs => by_cases h : m = c <;> simp [after?, h, ih, eq_comm]

def startsWith (mark cs : List Char) : Bool :=
  (after? mark cs).isSome

/-- The text before the first occurrence of `mark`, and the text after it. -/
def cut? (mark : List Char) : List Char → Option (List Char × List Char)
  | [] => (after? mark []).map fun rest ↦ ([], rest)
  | c :: cs =>
    match after? mark (c :: cs) with
    | some rest => some ([], rest)
    | none => (cut? mark cs).map fun (before, rest) ↦ (c :: before, rest)

theorem eq_append_of_cut? {mark cs before rest : List Char} (h : cut? mark cs = some (before, rest)) :
    cs = before ++ mark ++ rest := by
  induction cs generalizing before with
  | nil =>
    obtain ⟨r, hr, he⟩ := Option.map_eq_some_iff.1 h
    simp only [Prod.mk.injEq] at he
    obtain ⟨rfl, rfl⟩ := he
    simpa using after?_eq_some_iff.1 hr
  | cons c cs ih =>
    unfold cut? at h
    split at h
    · rename_i r hr
      simp only [Option.some.injEq, Prod.mk.injEq] at h
      obtain ⟨rfl, rfl⟩ := h
      simpa using after?_eq_some_iff.1 hr
    · obtain ⟨⟨b, r⟩, hb, he⟩ := Option.map_eq_some_iff.1 h
      simp only [Prod.mk.injEq] at he
      obtain ⟨rfl, rfl⟩ := he
      simp [ih hb]

/-- The first `n` bytes of a text and the rest, if the cut falls between two characters. -/
def splitBytes? : Nat → List Char → Option (List Char × List Char)
  | 0, cs => some ([], cs)
  | _ + 1, [] => none
  | n + 1, c :: cs =>
    if c.utf8Size ≤ n + 1 then
      (splitBytes? (n + 1 - c.utf8Size) cs).map fun (taken, rest) ↦ (c :: taken, rest)
    else none

theorem splitBytes?_eq_some_iff {n : Nat} {cs taken rest : List Char} :
    splitBytes? n cs = some (taken, rest) ↔ cs = taken ++ rest ∧ byteSize taken = n := by
  induction cs generalizing n taken with
  | nil =>
    cases n with
    | zero =>
      simp only [splitBytes?, Option.some.injEq, Prod.mk.injEq]
      constructor
      · rintro ⟨rfl, rfl⟩; simp
      · rintro ⟨h, -⟩; simp_all
    | succ n =>
      simp only [splitBytes?, reduceCtorEq, false_iff, not_and]
      intro h; simp_all
  | cons c cs ih =>
    have hc := c.utf8Size_pos
    cases n with
    | zero =>
      simp only [splitBytes?, Option.some.injEq, Prod.mk.injEq]
      constructor
      · rintro ⟨rfl, rfl⟩; simp
      · rintro ⟨h, h0⟩
        cases taken with
        | nil => simp_all
        | cons t ts => have := t.utf8Size_pos; simp at h0; omega
    | succ n =>
      unfold splitBytes?
      constructor
      · intro h
        split at h
        · obtain ⟨⟨t, r⟩, ht, he⟩ := Option.map_eq_some_iff.1 h
          simp only [Prod.mk.injEq] at he
          obtain ⟨rfl, rfl⟩ := he
          obtain ⟨rfl, hn⟩ := ih.1 ht
          simp [hn]; omega
        · cases h
      · rintro ⟨h, hn⟩
        cases taken with
        | nil => simp at hn
        | cons t ts =>
          simp only [List.cons_append, List.cons.injEq] at h
          obtain ⟨rfl, rfl⟩ := h
          simp only [byteSize_cons] at hn
          rw [if_pos (by omega), ih.2 ⟨rfl, show byteSize ts = n + 1 - c.utf8Size by omega⟩]
          rfl

def dropBytes (n : Nat) (cs : List Char) : List Char :=
  ((splitBytes? n cs).map Prod.snd).getD []

def dropAll (mark : List Char) (cs : List Char) : List Char :=
  match after? mark cs with
  | some rest => if rest.length < cs.length then dropAll mark rest else rest
  | none => cs
termination_by cs.length

def between? (opening closing cs : List Char) : Option (List Char) :=
  (after? opening cs).bind fun inner ↦
    (after? closing.reverse inner.reverse).map List.reverse

/-- The lines of a text. A line ends at a line feed, or at a carriage return before it; a final
line feed opens no further line. -/
def lines : List Char → List (List Char)
  | [] => []
  | '\r' :: '\n' :: cs => [] :: lines cs
  | '\n' :: cs => [] :: lines cs
  | c :: cs =>
    match lines cs with
    | [] => [[c]]
    | line :: rest => (c :: line) :: rest

/-- Every occurrence of two equal marks in a row is read as one. -/
def unpaired (mark : Char) : List Char → List Char
  | [] => []
  | [c] => [c]
  | a :: b :: cs => if a = mark ∧ b = mark then mark :: unpaired mark cs else a :: unpaired mark (b :: cs)

end DiagramText.Text
