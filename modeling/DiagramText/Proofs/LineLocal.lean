import DiagramText.Grammar.OfKind

namespace DiagramText

open Production

variable {α β : Type}

def OneLine (run : List Token) : Prop :=
  ∀ t ∈ run, t.isNewline = false

theorem OneLine.of_suffix {run run' : List Token} (h : OneLine run) (hs : run' <:+ run) :
    OneLine run' := fun t ht ↦ h t (hs.subset ht)

def StartsAtBreak (tail : List Token) : Prop :=
  ∀ t ∈ tail.head?, t.isNewline = true

def Outcome.append (tail : List Token) : Outcome α → Outcome α
  | .accepted a rest => .accepted a (rest ++ tail)
  | .refused why rest => .refused why (rest ++ tail)

def Outcome.rest : Outcome α → List Token
  | .accepted _ rest | .refused _ rest => rest

namespace Production

/-- The production leaves an end of what it reads, and does not see what follows the line. -/
structure WithinLine (p : Production α) : Prop where
  suffix (ts : List Token) : (p ts).rest <:+ ts
  append {run tail : List Token} (hr : OneLine run) (ht : StartsAtBreak tail) :
    p (run ++ tail) = (p run).append tail

/-- The production takes all of a line, with the line ends after it, or is refused within the
line; which of the two does not depend on what follows the line. -/
structure EndsLine (p : Production α) : Prop where
  append {run tail : List Token} (hr : OneLine run) (ht : StartsAtBreak tail) :
    match p run with
    | .accepted a rest => rest = [] ∧ p (run ++ tail) = .accepted a (tail.dropWhile Token.isNewline)
    | .refused why rest => rest <:+ run ∧ p (run ++ tail) = .refused why (rest ++ tail)

theorem withinLine_pure (a : α) : WithinLine (pure a : Production α) :=
  ⟨fun ts ↦ List.suffix_refl ts, fun _ _ ↦ rfl⟩

theorem withinLine_expected (what : String) : WithinLine (expected what : Production α) :=
  ⟨fun ts ↦ List.suffix_refl ts, fun _ _ ↦ rfl⟩

theorem withinLine_invalid (f : Fault) : WithinLine (invalid f : Production α) :=
  ⟨fun ts ↦ List.suffix_refl ts, fun _ _ ↦ rfl⟩

theorem WithinLine.bind {p : Production α} {f : α → Production β} (hp : WithinLine p)
    (hf : ∀ a, WithinLine (f a)) : WithinLine (p >>= f) where
  suffix ts := by
    have hs := hp.suffix ts
    rw [bind_apply]
    cases h : p ts with
    | accepted a rest =>
      rw [h] at hs
      exact ((hf a).suffix rest).trans hs
    | refused why rest =>
      rw [h] at hs
      exact hs
  append {run tail} hr ht := by
    have hs := hp.suffix run
    rw [bind_apply, bind_apply, hp.append hr ht]
    cases h : p run with
    | accepted a rest =>
      rw [h] at hs
      exact (hf a).append (hr.of_suffix hs) ht
    | refused why rest => rfl

theorem WithinLine.bind_endsLine {p : Production α} {f : α → Production β} (hp : WithinLine p)
    (hf : ∀ a, EndsLine (f a)) : EndsLine (p >>= f) := by
  refine ⟨fun {run tail} hr ht ↦ ?_⟩
  have hs := hp.suffix run
  rw [bind_apply, bind_apply, hp.append hr ht]
  cases h : p run with
  | accepted a rest =>
    rw [h] at hs
    have hrest : OneLine rest := hr.of_suffix hs
    have hfa := (hf a).append hrest ht
    simp only [Outcome.append]
    cases h' : f a rest with
    | accepted b rest' => rwa [h'] at hfa
    | refused why rest' =>
      rw [h'] at hfa
      exact ⟨hfa.1.trans hs, hfa.2⟩
  | refused why rest =>
    rw [h] at hs
    exact ⟨hs, rfl⟩

theorem WithinLine.endsLine_of_refuses {p : Production α} (hp : WithinLine p)
    (h : ∀ ts, ∃ why rest, p ts = .refused why rest) : EndsLine p := by
  refine ⟨fun {run tail} hr ht ↦ ?_⟩
  have hs := hp.suffix run
  obtain ⟨why, rest, he⟩ := h run
  rw [hp.append hr ht]
  rw [he] at hs ⊢
  exact ⟨hs, rfl⟩

theorem endsLine_expected (what : String) : EndsLine (expected what : Production α) :=
  (withinLine_expected what).endsLine_of_refuses fun ts ↦ ⟨_, ts, rfl⟩

theorem endsLine_invalid (f : Fault) : EndsLine (invalid f : Production α) :=
  (withinLine_invalid f).endsLine_of_refuses fun ts ↦ ⟨_, ts, rfl⟩

theorem EndsLine.bind_pure {p : Production α} (hp : EndsLine p) (f : α → β) :
    EndsLine (p >>= fun a ↦ pure (f a)) := by
  refine ⟨fun {run tail} hr ht ↦ ?_⟩
  have h := hp.append hr ht
  rw [bind_apply, bind_apply]
  cases hc : p run with
  | accepted a rest =>
    rw [hc] at h
    simp only [h.2, pure_apply]
    exact ⟨h.1, trivial⟩
  | refused why rest =>
    rw [hc] at h
    rw [h.2]
    exact ⟨h.1, rfl⟩

theorem endsLine_endOfLine : EndsLine endOfLine := by
  refine ⟨fun {run tail} hr ht ↦ ?_⟩
  cases run with
  | nil =>
    cases tail with
    | nil => exact ⟨rfl, rfl⟩
    | cons t ts => exact ⟨rfl, by simp [endOfLine, ht t rfl]⟩
  | cons t ts =>
    have hn : t.isNewline = false := hr t (by simp)
    simp only [endOfLine, hn, Bool.false_eq_true, if_false, List.cons_append]
    exact ⟨List.suffix_refl _, trivial⟩

theorem withinLine_satisfying {what : String} {f : Token → Option α}
    (h : ∀ t, t.isNewline = true → f t = none) : WithinLine (satisfying what f) where
  suffix ts := by
    cases ts with
    | nil => exact List.suffix_refl _
    | cons t ts =>
      simp only [satisfying]
      split
      · exact List.suffix_cons t ts
      · exact List.suffix_refl _
  append {run tail} hr ht := by
    cases run with
    | nil =>
      cases tail with
      | nil => rfl
      | cons t ts => simp [satisfying, h t (ht t rfl), Outcome.append]
    | cons t ts =>
      simp only [satisfying, List.cons_append]
      split <;> rfl

theorem withinLine_token {kind : Token.Kind} (hk : kind ≠ .newline) (what : String) :
    WithinLine (token kind what) :=
  withinLine_satisfying fun _ ht ↦ if_neg fun h ↦ hk (h.symm.trans (of_decide_eq_true ht))

theorem withinLine_keyword (k : Keyword) : WithinLine (keyword k) :=
  withinLine_token (by simp) k.text

theorem withinLine_symbol (s : Symbol) : WithinLine (symbol s) :=
  withinLine_token (by simp) s.text

/-- What only asks for the next kind does not tell a line end from the end of the text. -/
theorem nextKind_bind_append {f : Option Token.Kind → Production β} (h0 : f (some .newline) = f none)
    {run tail : List Token} (ht : StartsAtBreak tail) :
    (nextKind >>= f) (run ++ tail) = f (run.head?.map Token.kind) (run ++ tail) := by
  cases run with
  | nil =>
    cases tail with
    | nil => rfl
    | cons t ts =>
      have hk : t.kind = .newline := of_decide_eq_true (ht t rfl)
      change f (some t.kind) _ = f none _
      rw [hk, h0]
  | cons t ts => rfl

theorem WithinLine.bind_nextKind {f : Option Token.Kind → Production β}
    (h0 : f (some .newline) = f none) (hf : ∀ k, WithinLine (f k)) :
    WithinLine (nextKind >>= f) where
  suffix ts := (hf _).suffix ts
  append {run tail} hr ht := by
    rw [nextKind_bind_append h0 ht]
    exact (hf _).append hr ht

theorem EndsLine.bind_nextKind {f : Option Token.Kind → Production β}
    (h0 : f (some .newline) = f none) (hf : ∀ k, EndsLine (f k)) : EndsLine (nextKind >>= f) := by
  refine ⟨fun {run tail} hr ht ↦ ?_⟩
  rw [nextKind_bind_append h0 ht]
  exact (hf _).append hr ht

theorem withinLine_optional {p : Production α} (hp : WithinLine p) : WithinLine (optional p) where
  suffix ts := by
    have hs := hp.suffix ts
    unfold optional
    split
    · rename_i h
      rwa [h] at hs
    · exact List.suffix_refl ts
    · rename_i h
      rwa [h] at hs
  append {run tail} hr ht := by
    simp only [optional, hp.append hr ht]
    cases h : p run with
    | accepted a rest => rfl
    | refused why rest => cases why <;> rfl

theorem withinLine_many {p : Production α} (hp : WithinLine p) : WithinLine (many p) := by
  -- Both halves go in one induction: the tail is left alone at the next round only because what
  -- this round leaves is an end of the same line.
  have key (n : Nat) (ts : List Token) (hn : ts.length = n) :
      (many p ts).rest <:+ ts ∧ ∀ {tail}, OneLine ts → StartsAtBreak tail →
        many p (ts ++ tail) = (many p ts).append tail := by
    induction n using Nat.strongRecOn generalizing ts with
    | ind n ih =>
      subst hn
      have hs := hp.suffix ts
      cases h : p ts with
      | accepted a rest =>
        rw [h] at hs
        have hlt (tail : List Token) :
            (rest ++ tail).length < (ts ++ tail).length ↔ rest.length < ts.length := by simp
        by_cases hr : rest.length < ts.length
        · obtain ⟨hsr, har⟩ := ih _ hr rest rfl
          rw [many, h]
          simp only [hr, if_true]
          refine ⟨?_, fun {tail} ho ht ↦ ?_⟩
          · cases hm : many p rest <;> rw [hm] at hsr <;> exact hsr.trans hs
          · rw [many, hp.append ho ht, h]
            simp only [Outcome.append, hlt, hr, if_true, har (ho.of_suffix hs) ht]
            cases many p rest <;> rfl
        · rw [many, h]
          simp only [hr, if_false]
          refine ⟨List.suffix_refl ts, fun {tail} ho ht ↦ ?_⟩
          rw [many, hp.append ho ht, h]
          simp only [Outcome.append, hlt, hr, if_false]
      | refused why rest =>
        rw [h] at hs
        rw [many, h]
        cases why with
        | expected what =>
          refine ⟨List.suffix_refl ts, fun {tail} ho ht ↦ ?_⟩
          rw [many, hp.append ho ht, h]
          rfl
        | invalid f =>
          refine ⟨hs, fun {tail} ho ht ↦ ?_⟩
          rw [many, hp.append ho ht, h]
          rfl
  exact ⟨fun ts ↦ (key _ ts rfl).1, fun {run tail} hr ht ↦ (key _ run rfl).2 hr ht⟩

theorem withinLine_many1 {p : Production α} (hp : WithinLine p) : WithinLine (many1 p) :=
  hp.bind fun _ ↦ (withinLine_many hp).bind fun _ ↦ withinLine_pure _

theorem withinLine_value (read : Reader) {kind : Token.Kind} (hk : kind ≠ .newline) (what : String) :
    WithinLine (value read kind what) where
  suffix ts := by
    have hs := (withinLine_token hk what).suffix ts
    unfold value
    split
    · rename_i h
      rwa [h] at hs
    · rename_i t rest h
      rw [h] at hs
      split
      · exact hs
      · exact List.suffix_refl ts
  append {run tail} hr ht := by
    simp only [value, (withinLine_token hk what).append hr ht]
    cases h : token kind what run with
    | accepted t rest => cases hv : read t <;> simp [Outcome.append, hv]
    | refused why rest => rfl

theorem withinLine_text (read : Reader) {kind : Token.Kind} (hk : kind ≠ .newline) (what : String) :
    WithinLine (text read kind what) :=
  (withinLine_value read hk what).bind fun _ ↦ withinLine_pure _

theorem withinLine_number (read : Reader) {kind : Token.Kind} (hk : kind ≠ .newline)
    (what : String) : WithinLine (number read kind what) :=
  (withinLine_value read hk what).bind fun v ↦ by
    cases v.value with
    | number x => exact withinLine_pure _
    | text s => exact withinLine_invalid _

end Production

end DiagramText
