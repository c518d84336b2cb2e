import DiagramText.Grammar.Timeline

namespace DiagramText

open Grammar.Timeline (Entry addPeriod extend? step updateLast?)

section UpdateLast

variable {α : Type} {f : α → Option α}

theorem updateLast?_concat (f : α → Option α) (as : List α) (a : α) :
    updateLast? f (as ++ [a]) = (f a).map (as ++ [·]) := by
  induction as with
  | nil => rfl
  | cons b as ih =>
    obtain ⟨c, cs, hc⟩ := List.exists_cons_of_ne_nil (show as ++ [a] ≠ [] by simp)
    rw [List.cons_append, hc, updateLast?, ← hc, ih, Option.map_map]
    rfl

theorem eq_concat_of_updateLast? {as bs : List α} (h : updateLast? f as = some bs) :
    ∃ front a b, as = front ++ [a] ∧ f a = some b ∧ bs = front ++ [b] := by
  rcases List.eq_nil_or_concat as with rfl | ⟨front, a, rfl⟩
  · cases h
  · rw [List.concat_eq_append, updateLast?_concat] at h
    obtain ⟨b, hb, rfl⟩ := Option.map_eq_some_iff.1 h
    exact ⟨front, a, b, List.concat_eq_append, hb, rfl⟩

end UpdateLast

namespace Timeline

/-- Only the first section may be without a title, and one without a title has a period. -/
structure WellFormed (sections : List Section) : Prop where
  titled : ∀ s ∈ sections.tail, s.title.isSome
  filled : ∀ s ∈ sections, s.title = none → s.periods ≠ []

section Step

variable {sections : List Section} {s s' : Section}

theorem wellFormed_nil : WellFormed [] :=
  ⟨nofun, nofun⟩

theorem WellFormed.concat (h : WellFormed sections) (hs : s.title.isSome) :
    WellFormed (sections ++ [s]) where
  titled := by
    intro t ht
    cases sections with
    | nil => cases ht
    | cons first sections =>
      rcases List.mem_append.1 ht with ht | ht
      · exact h.titled t ht
      · exact List.mem_singleton.1 ht ▸ hs
  filled := by
    intro t ht hn
    rcases List.mem_append.1 ht with ht | ht
    · exact h.filled t ht hn
    · rw [List.mem_singleton.1 ht] at hn
      rw [hn] at hs
      cases hs

theorem WellFormed.replace_last (h : WellFormed (sections ++ [s])) (ht : s'.title = s.title)
    (hp : s'.periods ≠ []) : WellFormed (sections ++ [s']) where
  titled := by
    intro t hm
    cases sections with
    | nil => cases hm
    | cons first sections =>
      rcases List.mem_append.1 hm with hm | hm
      · exact h.titled t (List.mem_append_left _ hm)
      · rw [List.mem_singleton.1 hm, ht]
        exact h.titled s (List.mem_append_right _ (List.mem_singleton_self s))
  filled := by
    intro t hm hn
    rcases List.mem_append.1 hm with hm | hm
    · exact h.filled t (List.mem_append_left _ hm) hn
    · exact List.mem_singleton.1 hm ▸ hp

theorem addPeriod_concat (p : Period) (sections : List Section) (s : Section) :
    addPeriod p (sections ++ [s]) = sections ++ [{ s with periods := s.periods ++ [p] }] := by
  rw [addPeriod, updateLast?_concat]
  rfl

theorem WellFormed.addPeriod (h : WellFormed sections) (p : Period) :
    WellFormed (addPeriod p sections) := by
  rcases List.eq_nil_or_concat sections with rfl | ⟨front, s, rfl⟩
  · refine ⟨nofun, fun s hs _ ↦ ?_⟩
    rw [List.mem_singleton.1 hs]
    exact List.cons_ne_nil p []
  · rw [List.concat_eq_append] at h ⊢
    rw [addPeriod_concat]
    exact h.replace_last rfl (by simp)

theorem WellFormed.extend {events : List String} {sections' : List Section}
    (h : WellFormed sections) (he : extend? events sections = some sections') :
    WellFormed sections' := by
  obtain ⟨front, s, s', rfl, hs, rfl⟩ := eq_concat_of_updateLast? he
  obtain ⟨periods, hp, rfl⟩ := Option.map_eq_some_iff.1 hs
  obtain ⟨before, p, q, -, -, rfl⟩ := eq_concat_of_updateLast? hp
  exact h.replace_last rfl (by simp)

theorem WellFormed.step {faults : List Fault} (h : WellFormed sections) (e : Entry) :
    WellFormed (step (sections, faults) e).1 := by
  cases e with
  | «section» title => exact h.concat rfl
  | period p => exact h.addPeriod p
  | continuation events =>
    simp only [Grammar.Timeline.step]
    cases he : extend? events.value sections with
    | none => exact h
    | some sections' => exact h.extend he

theorem WellFormed.foldl_step (h : WellFormed sections) (faults : List Fault)
    (entries : List Entry) :
    WellFormed (entries.foldl Grammar.Timeline.step (sections, faults)).1 := by
  induction entries generalizing sections faults with
  | nil => exact h
  | cons e entries ih => exact ih (h.step e) _

end Step

def Section.entries (s : Section) : List Entry :=
  (s.title.map Entry.section).toList ++ s.periods.map Entry.period

variable {faults : List Fault}

theorem foldl_step_periods (before : List Section) (s : Section) (periods : List Period) :
    (periods.map Entry.period).foldl step (before ++ [s], faults) =
      (before ++ [{ s with periods := s.periods ++ periods }], faults) := by
  induction periods generalizing s with
  | nil => rw [List.append_nil]; rfl
  | cons p periods ih =>
    rw [List.map_cons, List.foldl_cons, step, addPeriod_concat, ih, List.append_assoc]
    rfl

theorem foldl_step_titled {s : Section} (hs : s.title.isSome) (before : List Section) :
    s.entries.foldl step (before, faults) = (before ++ [s], faults) := by
  obtain ⟨title, periods⟩ := s
  obtain ⟨t, rfl⟩ := Option.isSome_iff_exists.1 hs
  exact foldl_step_periods before ⟨some t, []⟩ periods

theorem foldl_step_all_titled {sections : List Section} (h : ∀ s ∈ sections, s.title.isSome)
    (before : List Section) :
    (sections.flatMap Section.entries).foldl step (before, faults) =
      (before ++ sections, faults) := by
  induction sections generalizing before with
  | nil => rw [List.append_nil]; rfl
  | cons s sections ih =>
    obtain ⟨hs, hrest⟩ := List.forall_mem_cons.1 h
    rw [List.flatMap_cons, List.foldl_append, foldl_step_titled hs, ih hrest, List.append_assoc,
      List.singleton_append]

theorem foldl_step_first {s : Section} (hs : s.title = none → s.periods ≠ []) :
    s.entries.foldl step ([], faults) = ([s], faults) := by
  cases ht : s.title with
  | some title => exact foldl_step_titled (by rw [ht]; rfl) []
  | none =>
    obtain ⟨title, periods⟩ := s
    obtain rfl : title = none := ht
    obtain ⟨p, rest, rfl⟩ := List.exists_cons_of_ne_nil (hs rfl)
    exact foldl_step_periods [] ⟨none, [p]⟩ rest

/-- The entries of well-formed sections add up to them, and none is at fault. -/
theorem WellFormed.foldl_entries {sections : List Section} (h : WellFormed sections) :
    (sections.flatMap Section.entries).foldl Grammar.Timeline.step ([], []) = (sections, []) := by
  cases sections with
  | nil => rfl
  | cons s sections =>
    have hrest : ∀ t ∈ sections, t.title.isSome := h.titled
    rw [List.flatMap_cons, List.foldl_append, foldl_step_first (h.filled s List.mem_cons_self),
      foldl_step_all_titled hrest]
    rfl

end Timeline

end DiagramText
