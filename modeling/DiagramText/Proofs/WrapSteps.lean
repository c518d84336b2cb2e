import DiagramText.Layout.Wrapping

namespace DiagramText.Wrapping

variable {seg : Segmenter} {fits : Line → Bool}

/-- The next word of a queue: it comes as it is, behind a joiner, or in place of the word that the
last joiner of all lacks. -/
inductive Takes : List Word → Bool → Word → List Word → Prop
  | bare {w : Word} {ws : List Word} : w.isJoiner = false → Takes (w :: ws) false w ws
  | joined {j w : Word} {ws : List Word} : j.isJoiner = true → Takes (j :: w :: ws) true w ws
  | lone {j : Word} : j.isJoiner = true → Takes [j] true .joiner []

theorem takes_of_next? {queue ws : List Word} {joined : Bool} {w : Word}
    (h : next? queue = some (joined, w, ws)) : Takes queue joined w ws := by
  match queue with
  | [] => cases h
  | [v] =>
    cases hv : v.isJoiner with
    | true =>
      simp only [next?, hv, if_true, Option.some.injEq, Prod.mk.injEq] at h
      obtain ⟨rfl, rfl, rfl⟩ := h
      exact .lone hv
    | false =>
      simp only [next?, hv, Bool.false_eq_true, if_false, Option.some.injEq, Prod.mk.injEq] at h
      obtain ⟨rfl, rfl, rfl⟩ := h
      exact .bare hv
  | v :: u :: us =>
    cases hv : v.isJoiner with
    | true =>
      simp only [next?, hv, if_true, Option.some.injEq, Prod.mk.injEq] at h
      obtain ⟨rfl, rfl, rfl⟩ := h
      exact .joined hv
    | false =>
      simp only [next?, hv, Bool.false_eq_true, if_false, Option.some.injEq, Prod.mk.injEq] at h
      obtain ⟨rfl, rfl, rfl⟩ := h
      exact .bare hv

theorem Takes.next?_eq {queue ws : List Word} {joined : Bool} {w : Word}
    (h : Takes queue joined w ws) : next? queue = some (joined, w, ws) := by
  cases h with
  | bare hw => cases ws <;> simp [next?, hw]
  | joined hj | lone hj => simp [next?, hj]

theorem Takes.unique {queue ws vs : List Word} {joined joined' : Bool} {w v : Word}
    (h : Takes queue joined w ws) (h' : Takes queue joined' v vs) :
    joined = joined' ∧ w = v ∧ ws = vs := by
  simpa only [Option.some.injEq, Prod.mk.injEq] using h.next?_eq.symm.trans h'.next?_eq

theorem Takes.forall_mem {queue ws : List Word} {joined : Bool} {w : Word} {P : Word → Prop}
    (h : Takes queue joined w ws) (hj : P .joiner) (hq : ∀ v ∈ queue, P v) :
    P w ∧ ∀ v ∈ ws, P v := by
  cases h with
  | bare _ => exact List.forall_mem_cons.1 hq
  | joined _ => exact List.forall_mem_cons.1 (List.forall_mem_cons.1 hq).2
  | lone _ => exact ⟨hj, by simp⟩

theorem queue_eq_nil_of_next? {queue : List Word} (h : next? queue = none) : queue = [] := by
  match queue with
  | [] => rfl
  | [_] | _ :: _ :: _ => cases h

/-- The words to place once a word is cut: the rest of it, unless that is empty, and those after. -/
def requeue (rest : Word) (ws : List Word) : List Word :=
  if rest.content ≠ "" then rest :: ws else ws

theorem forall_mem_requeue {rest : Word} {ws : List Word} {P : Word → Prop} (hrest : P rest)
    (hws : ∀ v ∈ ws, P v) : ∀ v ∈ requeue rest ws, P v := by
  unfold requeue
  split
  · exact List.forall_mem_cons.2 ⟨hrest, hws⟩
  · exact hws

/-- What a step does with the next word, and the lines that it closes. -/
inductive Places (seg : Segmenter) (fits : Line → Bool) : Wrapping → List Line → Wrapping → Prop
  | join {current : Line} {queue ws : List Word} {joined : Bool} {w : Word} :
      Takes queue joined w ws → fits (extend current joined w) = true →
      Places seg fits ⟨current, queue⟩ [] ⟨extend current joined w, ws⟩
  | close {current : Line} {queue ws : List Word} {joined : Bool} {w : Word} :
      Takes queue joined w ws → fits (extend current joined w) = false → current ≠ [] →
      Places seg fits ⟨current, queue⟩ [current] ⟨[], w :: ws⟩
  | cut {queue ws : List Word} {joined : Bool} {w : Word} :
      Takes queue joined w ws → fits (extend [] joined w) = false → w.content ≠ "" →
      Places seg fits ⟨[], queue⟩ [[(w.cut seg fits).1]] ⟨[], requeue (w.cut seg fits).2 ws⟩
  | drop {queue ws : List Word} {joined : Bool} {w : Word} :
      Takes queue joined w ws → fits (extend [] joined w) = false → w.content = "" →
      Places seg fits ⟨[], queue⟩ [] ⟨[], ws⟩

theorem places_of_step {s t : Wrapping} {closed : List Line}
    (h : s.step seg fits = some (closed, t)) : Places seg fits s closed t := by
  obtain ⟨current, queue⟩ := s
  obtain ⟨⟨joined, w, ws⟩, hn, he⟩ := Option.map_eq_some_iff.1 h
  have ht := takes_of_next? hn
  dsimp only at he
  split at he
  · rename_i hf
    obtain ⟨rfl, rfl⟩ := Prod.mk.inj he
    exact .join ht hf
  · rename_i hf
    rw [Bool.not_eq_true] at hf
    split at he
    · rename_i hc
      obtain ⟨rfl, rfl⟩ := Prod.mk.inj he
      exact .close ht hf hc
    · rename_i hc
      obtain rfl := Decidable.not_not.1 hc
      split at he
      · rename_i hw
        obtain ⟨rfl, rfl⟩ := Prod.mk.inj he
        exact .cut ht hf hw
      · rename_i hw
        obtain ⟨rfl, rfl⟩ := Prod.mk.inj he
        exact .drop ht hf (Decidable.not_not.1 hw)

theorem queue_eq_nil_of_step {s : Wrapping} (h : s.step seg fits = none) : s.queue = [] :=
  queue_eq_nil_of_next? (Option.map_eq_none_iff.1 h)

/-- The lines that come out when all words are placed, step by step. -/
inductive Runs (seg : Segmenter) (fits : Line → Bool) : Wrapping → List Line → Prop
  | nil : Runs seg fits ⟨[], []⟩ []
  | last {current : Line} : current ≠ [] → Runs seg fits ⟨current, []⟩ [current]
  | step {s t : Wrapping} {closed ls : List Line} :
      Places seg fits s closed t → Runs seg fits t ls → Runs seg fits s (closed ++ ls)

theorem runs_lines (s : Wrapping) : Runs seg fits s (lines seg fits s) := by
  fun_induction lines seg fits s with
  | case1 s closed t h _ ih => exact .step (places_of_step h) ih
  | case2 s h hc =>
    obtain ⟨current, queue⟩ := s
    obtain rfl : queue = [] := queue_eq_nil_of_step h
    obtain rfl : current = [] := hc
    exact .nil
  | case3 s h hc =>
    obtain ⟨current, queue⟩ := s
    obtain rfl : queue = [] := queue_eq_nil_of_step h
    exact .last hc

theorem exists_runs (seg : Segmenter) (fits : Line → Bool) {line : Line}
    (h : line.hasLineBreak = false) :
    ∃ ls, line.wrap seg fits = .ok ls ∧ Runs seg fits ⟨[], line⟩ ls :=
  ⟨lines seg fits ⟨[], line⟩, if_neg (by simp [h]), runs_lines _⟩

section Inversion

variable {current : Line} {queue ws : List Word} {joined : Bool} {w : Word} {ls : List Line}

theorem Runs.eq_of_no_words (h : Runs seg fits ⟨current, []⟩ ls) :
    ls = if current = [] then [] else [current] := by
  cases h with
  | nil => rfl
  | last hc => rw [if_neg hc]
  | step hp _ => cases hp with | join ht | close ht | cut ht | drop ht => cases ht

theorem Runs.of_accepted (h : Runs seg fits ⟨current, queue⟩ ls) (ht : Takes queue joined w ws)
    (hf : fits (extend current joined w) = true) :
    Runs seg fits ⟨extend current joined w, ws⟩ ls := by
  cases h with
  | nil | last _ => cases ht
  | step hp hr =>
    cases hp with
    | join ht' _ =>
      obtain ⟨rfl, rfl, rfl⟩ := ht.unique ht'
      exact hr
    | close ht' hn _ | cut ht' hn _ | drop ht' hn _ =>
      obtain ⟨rfl, rfl, rfl⟩ := ht.unique ht'
      exact absurd hf (Bool.eq_false_iff.1 hn)

theorem Runs.of_closed (h : Runs seg fits ⟨current, queue⟩ ls) (ht : Takes queue joined w ws)
    (hf : fits (extend current joined w) = false) (hc : current ≠ []) :
    ∃ more, ls = current :: more ∧ Runs seg fits ⟨[], w :: ws⟩ more := by
  cases h with
  | nil | last _ => cases ht
  | step hp hr =>
    cases hp with
    | join ht' ha =>
      obtain ⟨rfl, rfl, rfl⟩ := ht.unique ht'
      exact absurd ha (Bool.eq_false_iff.1 hf)
    | close ht' _ _ =>
      obtain ⟨rfl, rfl, rfl⟩ := ht.unique ht'
      exact ⟨_, rfl, hr⟩
    | cut | drop => exact absurd rfl hc

theorem Runs.of_cut (h : Runs seg fits ⟨[], queue⟩ ls) (ht : Takes queue joined w ws)
    (hf : fits (extend [] joined w) = false) (hn : w.content ≠ "") :
    ∃ more, ls = [(w.cut seg fits).1] :: more ∧
      Runs seg fits ⟨[], requeue (w.cut seg fits).2 ws⟩ more := by
  cases h with
  | nil | last _ => cases ht
  | step hp hr =>
    cases hp with
    | join ht' ha =>
      obtain ⟨rfl, rfl, rfl⟩ := ht.unique ht'
      exact absurd ha (Bool.eq_false_iff.1 hf)
    | close _ _ hc => exact absurd rfl hc
    | cut ht' _ _ =>
      obtain ⟨rfl, rfl, rfl⟩ := ht.unique ht'
      exact ⟨_, rfl, hr⟩
    | drop ht' _ he =>
      obtain ⟨rfl, rfl, rfl⟩ := ht.unique ht'
      exact absurd he hn

end Inversion

end DiagramText.Wrapping
