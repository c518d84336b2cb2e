import DiagramText.Lexicon.Scan
import Mathlib.Data.List.Forall2
import Mathlib.Logic.Relation

namespace DiagramText.Lexicon

open Text (byteSize)

variable {l : Lexicon} {c c' c'' : Cursor} {m : Match}
variable {ts ts' : List Token} {es es' : List Diagnostic}

theorem match?_eq_none_of_end (h : c.after = []) : l.match? c = none := by
  cases hm : l.match? c with
  | none => rfl
  | some m =>
    obtain ⟨he, hn⟩ := after_eq_of_match? hm
    simp_all

theorem exists_rule_of_match? (h : l.match? c = some m) : ∃ r ∈ l.rules, r.kind = m.kind := by
  obtain ⟨r, hr, h⟩ := List.exists_of_findSome?_eq_some h
  obtain ⟨stop, -, h⟩ := Option.bind_eq_some_iff.1 h
  split at h
  · cases h
  · obtain ⟨p, -, rfl⟩ := Option.map_eq_some_iff.1 h
    exact ⟨r, hr, rfl⟩

theorem scan_of_end (h : c.after = []) : l.scan c = ⟨[], []⟩ := by
  rw [scan]
  split
  · rfl
  · simp_all

theorem scan_of_match (h : l.match? c = some m) :
    l.scan c =
      let next := l.scan (c.past m.text m.rest)
      if m.kind.isHidden then next else ⟨token m.kind c m.text :: next.tokens, next.errors⟩ := by
  rw [scan]
  split
  · rw [match?_eq_none_of_end ‹_›] at h
    cases h
  · split
    · simp_all
    · simp_all

def unmatchedToken (l : Lexicon) (c : Cursor) (ch : Char) (cs : List Char) : Token :=
  token .invalid c (l.unmatched c.before ch cs).1

def pastUnmatched (l : Lexicon) (c : Cursor) (ch : Char) (cs : List Char) : Cursor :=
  c.past (l.unmatched c.before ch cs).1 (l.unmatched c.before ch cs).2

theorem scan_of_none {ch : Char} {cs : List Char} (h : l.match? c = none)
    (ha : c.after = ch :: cs) :
    l.scan c =
      let next := l.scan (l.pastUnmatched c ch cs)
      ⟨l.unmatchedToken c ch cs :: next.tokens,
        (unmatchedFault (l.unmatchedToken c ch cs)).diagnostic :: next.errors⟩ := by
  rw [scan]
  split
  · simp_all
  · rename_i ch' cs' ha'
    obtain ⟨rfl, rfl⟩ := List.cons.inj (ha.symm.trans ha')
    split
    · simp_all
    · rfl

/-- A scan may go from one cursor to the other, with these tokens and diagnostics on its way. -/
inductive Walks (l : Lexicon) : Cursor → List Token → List Diagnostic → Cursor → Prop
  | done (c : Cursor) : Walks l c [] [] c
  | skip {c c' : Cursor} {m : Match} {ts : List Token} {es : List Diagnostic} :
      l.match? c = some m → m.kind.isHidden = true → Walks l (c.past m.text m.rest) ts es c' →
      Walks l c ts es c'
  | take {c c' : Cursor} {m : Match} {ts : List Token} {es : List Diagnostic} :
      l.match? c = some m → m.kind.isHidden = false → Walks l (c.past m.text m.rest) ts es c' →
      Walks l c (token m.kind c m.text :: ts) es c'
  | giveUp {c c' : Cursor} {ch : Char} {cs : List Char} {ts : List Token} {es : List Diagnostic} :
      l.match? c = none → c.after = ch :: cs → Walks l (l.pastUnmatched c ch cs) ts es c' →
      Walks l c (l.unmatchedToken c ch cs :: ts)
        ((unmatchedFault (l.unmatchedToken c ch cs)).diagnostic :: es) c'

theorem walks_scan (l : Lexicon) (c : Cursor) :
    ∃ c', c'.after = [] ∧ Walks l c (l.scan c).tokens (l.scan c).errors c' := by
  -- A match or a stretch that nothing matches shortens what is left, so that is what falls.
  induction hn : c.after.length using Nat.strongRecOn generalizing c with
  | ind n ih =>
    subst hn
    cases ha : c.after with
    | nil => exact ⟨c, ha, by rw [scan_of_end ha]; exact .done c⟩
    | cons ch cs =>
      cases hm : l.match? c with
      | some m =>
        obtain ⟨c', he, hw⟩ := ih _ (length_rest_lt_of_match? hm) (c.past m.text m.rest) rfl
        refine ⟨c', he, ?_⟩
        rw [scan_of_match hm]
        cases hk : m.kind.isHidden with
        | true => exact .skip hm hk hw
        | false => exact .take hm hk hw
      | none =>
        have hlt : (l.pastUnmatched c ch cs).after.length < c.after.length := by
          rw [ha]
          exact l.length_unmatched_lt c.before ch cs
        obtain ⟨c', he, hw⟩ := ih _ hlt (l.pastUnmatched c ch cs) rfl
        exact ⟨c', he, by rw [scan_of_none hm ha]; exact .giveUp hm ha hw⟩

theorem Walks.scan_eq (h : Walks l c ts es c') :
    l.scan c = ⟨ts ++ (l.scan c').tokens, es ++ (l.scan c').errors⟩ := by
  induction h with
  | done c => rfl
  | skip hm hk _ ih => rw [scan_of_match hm]; simp [hk, ih]
  | take hm hk _ ih => rw [scan_of_match hm]; simp [hk, ih]
  | giveUp hm ha _ ih => rw [scan_of_none hm ha]; simp [ih]

theorem Walks.trans (h : Walks l c ts es c') (h' : Walks l c' ts' es' c'') :
    Walks l c (ts ++ ts') (es ++ es') c'' := by
  induction h with
  | done c => exact h'
  | skip hm hk _ ih => exact .skip hm hk (ih h')
  | take hm hk _ ih => exact .take hm hk (ih h')
  | giveUp hm ha _ ih => exact .giveUp hm ha (ih h')

theorem text_past_of_match? (h : l.match? c = some m) : (c.past m.text m.rest).text = c.text :=
  Cursor.text_past (after_eq_of_match? h).1

theorem text_pastUnmatched {ch : Char} {cs : List Char} (ha : c.after = ch :: cs) :
    (l.pastUnmatched c ch cs).text = c.text :=
  Cursor.text_past (ha.trans (l.unmatched_append c.before ch cs).symm)

theorem Walks.text_eq (h : Walks l c ts es c') : c'.text = c.text := by
  induction h with
  | done c => rfl
  | skip hm _ _ ih => exact ih.trans (text_past_of_match? hm)
  | take hm _ _ ih => exact ih.trans (text_past_of_match? hm)
  | giveUp _ ha _ ih => exact ih.trans (text_pastUnmatched ha)

theorem unmatched_ne_nil (l : Lexicon) (before : List Char) (ch : Char) (cs : List Char) :
    (l.unmatched before ch cs).1 ≠ [] := by
  unfold unmatched
  split <;> simp

end DiagramText.Lexicon
