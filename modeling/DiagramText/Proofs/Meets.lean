import DiagramText.Grammar.OfKind

namespace DiagramText

variable {α β : Type} {Q : Span → Prop} {R : α → Prop} {S : β → Prop}

/-- What holds of two spans holds of the stretch from where the first starts to where the last
ends. -/
def Span.UnionClosed (Q : Span → Prop) : Prop :=
  ∀ s t, Q s → Q t → Q (s.union t)

def TokensAt (Q : Span → Prop) (ts : List Token) : Prop :=
  ∀ t ∈ ts, Q t.span

/-- A fault of one line by itself; others are of the text that tokens are cut from, or only show
when lines are put together. -/
def Fault.isOfLine : Fault → Bool
  | unexpectedToken .. | endOfLine .. | endOfInput .. | notANumber .. | notWholeBits ..
  | reversedRange .. => true
  | unexpectedText .. | unterminatedString .. | noLinks _ | noPeriod _ => false

/-- A fault of a line with its labels at spans of which `Q` holds. -/
structure Fault.At (Q : Span → Prop) (f : Fault) : Prop where
  isOfLine : f.isOfLine = true
  labels : ∀ l ∈ f.diagnostic.labels, Q l.span

def Outcome.Meets (Q : Span → Prop) (R : α → Prop) (ts : List Token) : Outcome α → Prop
  | .accepted a rest => R a ∧ rest <:+ ts
  | .refused (.expected _) rest => rest <:+ ts
  | .refused (.invalid f) _ => f.At Q

def Reader.BlamesNumbers (read : Reader) : Prop :=
  ∀ t f, read t = .error f → f = .notANumber t.text t.span

theorem TokensAt.of_suffix {ts rest : List Token} (h : TokensAt Q ts) (hs : rest <:+ ts) :
    TokensAt Q rest :=
  fun t ht ↦ h t (hs.subset ht)

theorem Fault.at_notANumber {s : Span} (h : Q s) (text : String) : (notANumber text s).At Q :=
  ⟨rfl, List.forall_mem_singleton.2 h⟩

theorem Outcome.Meets.of_suffix {o : Outcome α} {ts rest : List Token} (h : o.Meets Q R rest)
    (hs : rest <:+ ts) : o.Meets Q R ts := by
  cases o with
  | accepted a more => exact ⟨h.1, h.2.trans hs⟩
  | refused why more =>
    cases why with
    | expected what => exact List.IsSuffix.trans h hs
    | invalid f => exact h

theorem Outcome.Meets.refused {why : Refusal} {ts rest : List Token}
    (h : (Outcome.refused why rest : Outcome α).Meets Q R ts) :
    (Outcome.refused why rest : Outcome β).Meets Q S ts := by
  cases why <;> exact h

namespace Production

/-- From tokens at spans of which `Q` holds, the production accepts only values of which `R` holds,
and its faults keep to such spans. -/
def Meets (Q : Span → Prop) (p : Production α) (R : α → Prop) : Prop :=
  ∀ ts, TokensAt Q ts → (p ts).Meets Q R ts

theorem Meets.outcome {p : Production α} {ts : List Token} {o : Outcome α} (hp : Meets Q p R)
    (ht : TokensAt Q ts) (ho : p ts = o) : o.Meets Q R ts :=
  ho ▸ hp ts ht

theorem meets_pure {a : α} (h : R a) : Meets Q (pure a) R :=
  fun ts _ ↦ ⟨h, List.suffix_refl ts⟩

theorem meets_expected (what : String) : Meets Q (expected what) R :=
  fun ts _ ↦ List.suffix_refl ts

theorem meets_invalid {f : Fault} (h : f.At Q) : Meets Q (invalid f) R :=
  fun _ _ ↦ h

theorem meets_nextKind : Meets Q nextKind fun _ ↦ True :=
  fun ts _ ↦ ⟨trivial, List.suffix_refl ts⟩

theorem meets_newlines : Meets Q newlines fun _ ↦ True :=
  fun _ _ ↦ ⟨trivial, List.dropWhile_suffix _⟩

theorem meets_endOfLine : Meets Q endOfLine fun _ ↦ True := by
  intro ts ht
  cases ts with
  | nil => exact ⟨trivial, List.suffix_rfl⟩
  | cons t ts =>
    simp only [endOfLine]
    split
    · exact ⟨trivial, (List.dropWhile_suffix _).trans (List.suffix_cons t ts)⟩
    · exact List.suffix_rfl

theorem Meets.bind {p : Production α} {f : α → Production β} (hp : Meets Q p R)
    (hf : ∀ a, R a → Meets Q (f a) S) : Meets Q (p >>= f) S := by
  intro ts ht
  rw [bind_apply]
  cases ho : p ts with
  | accepted a rest =>
    obtain ⟨ha, hs⟩ := hp.outcome ht ho
    exact (hf a ha rest (ht.of_suffix hs)).of_suffix hs
  | refused why rest => exact (hp.outcome ht ho).refused

theorem Meets.mono {R' : α → Prop} {p : Production α} (hp : Meets Q p R) (h : ∀ a, R a → R' a) :
    Meets Q p R' := by
  intro ts ht
  cases ho : p ts with
  | accepted a rest =>
    obtain ⟨ha, hs⟩ := hp.outcome ht ho
    exact ⟨h a ha, hs⟩
  | refused why rest => exact (hp.outcome ht ho).refused

theorem Meets.bind_pure {p : Production α} {f : α → β} (hp : Meets Q p R)
    (h : ∀ a, R a → S (f a)) : Meets Q (p >>= fun a ↦ pure (f a)) S :=
  hp.bind fun a ha ↦ meets_pure (h a ha)

theorem meets_endOfLine_pure {a : α} (h : R a) :
    Meets Q (endOfLine >>= fun _ ↦ pure a) R :=
  meets_endOfLine.bind_pure fun _ _ ↦ h

theorem meets_satisfying {what : String} {f : Token → Option α}
    (h : ∀ t a, Q t.span → f t = some a → R a) : Meets Q (satisfying what f) R := by
  intro ts ht
  cases ts with
  | nil => exact List.suffix_rfl
  | cons t ts =>
    have hq : Q t.span := ht t List.mem_cons_self
    simp only [satisfying]
    split
    · exact ⟨h t _ hq ‹_›, List.suffix_cons t ts⟩
    · exact List.suffix_rfl

theorem meets_token (kind : Token.Kind) (what : String) :
    Meets Q (token kind what) fun t ↦ Q t.span := by
  refine meets_satisfying fun t u hq hu ↦ ?_
  obtain ⟨-, hu⟩ := Option.ite_none_right_eq_some.1 hu
  exact Option.some.inj hu ▸ hq

theorem meets_keyword (k : Keyword) : Meets Q (keyword k) fun _ ↦ True :=
  meets_satisfying fun _ _ _ _ ↦ trivial

theorem meets_symbol (s : Symbol) : Meets Q (symbol s) fun _ ↦ True :=
  meets_satisfying fun _ _ _ _ ↦ trivial

theorem meets_keywordOf (ks : List Keyword) (what : String) :
    Meets Q (keywordOf ks what) fun _ ↦ True :=
  meets_satisfying fun _ _ _ _ ↦ trivial

theorem meets_optional {p : Production α} (hp : Meets Q p R) :
    Meets Q (optional p) fun o ↦ ∀ a ∈ o, R a := by
  intro ts ht
  unfold optional
  split
  · rename_i ho
    obtain ⟨ha, hs⟩ := hp.outcome ht ho
    exact ⟨fun b hb ↦ Option.some.inj hb ▸ ha, hs⟩
  · exact ⟨fun a ha ↦ absurd ha (Option.not_mem_none a), List.suffix_rfl⟩
  · rename_i ho
    exact (hp.outcome ht ho).refused

theorem meets_many {p : Production α} (hp : Meets Q p R) :
    Meets Q (many p) fun as ↦ ∀ a ∈ as, R a := by
  intro ts ht
  fun_induction many p ts with
  | case1 ts a rest ho hlt as rest' hm ih =>
    obtain ⟨ha, hs⟩ := hp.outcome ht ho
    have hmany := ih (ht.of_suffix hs)
    rw [hm] at hmany
    exact ⟨List.forall_mem_cons.2 ⟨ha, hmany.1⟩, hmany.2.trans hs⟩
  | case2 ts a rest ho hlt why rest' hm ih =>
    obtain ⟨-, hs⟩ := hp.outcome ht ho
    have hmany := (ih (ht.of_suffix hs)).of_suffix hs
    rw [hm] at hmany
    exact hmany.refused
  | case3 ts a rest ho hge => exact ⟨nofun, List.suffix_rfl⟩
  | case4 ts what rest ho => exact ⟨nofun, List.suffix_rfl⟩
  | case5 ts f rest ho => exact (hp.outcome ht ho).refused

theorem meets_many1 {p : Production α} (hp : Meets Q p R) :
    Meets Q (many1 p) fun as ↦ as ≠ [] ∧ ∀ a ∈ as, R a :=
  hp.bind fun a ha ↦ (meets_many hp).bind_pure fun as has ↦
    ⟨List.cons_ne_nil a as, List.forall_mem_cons.2 ⟨ha, has⟩⟩

section Values

variable {read : Reader} (hr : read.BlamesNumbers) (kind : Token.Kind) (what : String)
include hr

theorem meets_value : Meets Q (value read kind what) fun v ↦ Q v.span := by
  intro ts ht
  unfold value
  split
  · rename_i ho
    exact ((meets_token kind what).outcome ht ho).refused
  · rename_i t rest ho
    obtain ⟨hq, hs⟩ := (meets_token kind what).outcome ht ho
    split
    · exact ⟨hq, hs⟩
    · rename_i f hf
      have hf : f = .notANumber t.text t.span := hr t f hf
      exact hf ▸ Fault.at_notANumber hq t.text

theorem meets_text : Meets Q (text read kind what) fun s ↦ Q s.span :=
  (meets_value hr kind what).bind_pure fun _ hq ↦ hq

theorem meets_number : Meets Q (number read kind what) fun x ↦ Q x.span := by
  refine (meets_value hr kind what).bind fun v hq ↦ ?_
  cases v.value with
  | number x => exact meets_pure hq
  | text s => exact meets_invalid (Fault.at_notANumber hq s)

end Values

end Production

def ResultAt (Q : Span → Prop) (R : α → Prop) : Except Fault α → Prop
  | .ok a => R a
  | .error f => f.At Q

theorem Outcome.Meets.fault_at {why : Refusal} {ts rest : List Token}
    (h : (Outcome.refused why rest : Outcome α).Meets Q R ts) (ht : TokensAt Q ts) {textEnd : Nat}
    (he : rest = [] → Q (.emptyAt textEnd)) : (why.fault textEnd rest).At Q := by
  cases why with
  | invalid f => exact h
  | expected what =>
    cases rest with
    | nil => exact ⟨rfl, List.forall_mem_singleton.2 (he rfl)⟩
    | cons t rest =>
      have ht : Q t.span := ht t (List.IsSuffix.subset h List.mem_cons_self)
      simp only [Refusal.fault]
      split
      · exact ⟨rfl, List.forall_mem_singleton.2 ht⟩
      · exact ⟨rfl, List.forall_mem_singleton.2 ht⟩

theorem afterLine_suffix (ts : List Token) : afterLine ts <:+ ts :=
  (List.drop_suffix 1 _).trans (List.dropWhile_suffix _)

/-- Whatever statements come to keeps to the guarantee of each of them. -/
theorem statements_at {statement : Production α} (hs : statement.Meets Q R) {textEnd : Nat}
    (he : Q (.emptyAt textEnd)) {ts : List Token} (ht : TokensAt Q ts) :
    ∀ r ∈ statements statement textEnd ts, ResultAt Q R r := by
  have hline {ts : List Token} {u : Token} {us : List Token} (ht : TokensAt Q ts)
      (hl : ts.dropWhile Token.isNewline = u :: us) : TokensAt Q (u :: us) :=
    ht.of_suffix (hl ▸ List.dropWhile_suffix _)
  fun_induction statements statement textEnd ts with
  | case1 ts hb => exact fun r hr ↦ absurd hr List.not_mem_nil
  | case2 ts u us hl _ a rest ho hlt ih =>
    obtain ⟨ha, hrest⟩ := hs.outcome (hline ht hl) ho
    exact List.forall_mem_cons.2 ⟨ha, ih ((hline ht hl).of_suffix hrest)⟩
  | case3 ts u us hl _ a rest ho hge =>
    exact List.forall_mem_singleton.2 (hs.outcome (hline ht hl) ho).1
  | case4 ts u us hl _ why rest ho _ ih =>
    have hfault := (hs.outcome (hline ht hl) ho).fault_at (hline ht hl) fun _ ↦ he
    exact List.forall_mem_cons.2
      ⟨hfault, ih ((hline ht hl).of_suffix (afterLine_suffix _))⟩

theorem itemsOf_at {results : List (Except Fault α)} (h : ∀ r ∈ results, ResultAt Q R r) :
    ∀ a ∈ itemsOf results, R a := by
  intro a ha
  obtain ⟨r, hr, hra⟩ := List.mem_filterMap.1 ha
  cases r with
  | ok b => exact Option.some.inj hra ▸ h _ hr
  | error f => cases hra

theorem faultsOf_at {results : List (Except Fault α)} (h : ∀ r ∈ results, ResultAt Q R r) :
    ∀ f ∈ faultsOf results, f.At Q := by
  intro f hf
  obtain ⟨r, hr, hrf⟩ := List.mem_filterMap.1 hf
  cases r with
  | ok a => cases hrf
  | error g => exact Option.some.inj hrf ▸ h _ hr

end DiagramText
