import DiagramText.Proofs.SliceFollows
import DiagramText.Proofs.Walk

namespace DiagramText

open Text (IsBoundary byteSize isBlank isBreak slice sliceFrom splitBytes?)
open Lexicon (isQuote unmatchedFault)

structure SliceRule where
  kind : Token.Kind
  matcher : SliceMatcher

abbrev SliceLexicon := List SliceRule

/-- Where a match stops. A matcher may be handed boundaries only, so the text is cut there first. -/
def SliceRule.stop? (r : SliceRule) (text : List Char) (start : Nat) : Sliced (Option Nat) := do
  let _ ← sliceFrom text start
  let stop ← r.matcher.moving text start
  pure (stop.filter fun stop ↦ IsBoundary text stop)

namespace SliceLexicon

def first? : SliceLexicon → List Char → Nat → Sliced (Option (Token.Kind × Nat))
  | [], _, _ => pure none
  | r :: l, text, start => do
    match ← r.stop? text start with
    | some stop => pure (some (r.kind, stop))
    | none => first? l text start

def token (kind : Token.Kind) (text : List Char) (start stop : Nat) : Sliced Token := do
  let run ← slice text start stop
  pure ⟨kind, String.ofList run, ⟨start, stop⟩⟩

/-- Whether the run given up from `start` on ends before the character `c` at `here`. -/
def endsRun (l : SliceLexicon) (text : List Char) (start : Nat) (quoted : Bool) (here : Nat)
    (c : Char) : Sliced Bool :=
  if quoted then pure (isBreak c)
  else if start < here then
    if isBlank c then pure true
    else do
      let m ← l.first? text here
      pure m.isSome
  else pure false

def runEnd (l : SliceLexicon) (text : List Char) (start : Nat) (quoted : Bool) :
    Nat → List Char → Sliced Nat
  | here, [] => pure here
  | here, c :: cs => do
    if ← l.endsRun text start quoted here c then pure here
    else l.runEnd text start quoted (here + c.utf8Size) cs

/-- The token and the diagnostic of the run given up from `start` on, and its end. -/
def recover (l : SliceLexicon) (text : List Char) (start : Nat) : Sliced (Lexed × Nat) := do
  let rest ← sliceFrom text start
  let quoted := rest.head?.any isQuote
  let stop ← l.runEnd text start quoted start rest
  let run ← slice text start stop
  let fault := if quoted then Fault.unterminatedString (String.ofList run) ⟨start, stop⟩
    else Fault.unexpectedText (String.ofList run) ⟨start, stop⟩
  let t ← token .invalid text start stop
  pure (⟨[t], [fault.diagnostic]⟩, stop)

def step (l : SliceLexicon) (text : List Char) (start : Nat) : Sliced (Lexed × Nat) := do
  match ← l.first? text start with
  | some (kind, stop) =>
    if kind.isHidden then pure (⟨[], []⟩, stop)
    else
      let t ← token kind text start stop
      pure (⟨[t], []⟩, stop)
  | none => l.recover text start

variable {l : SliceLexicon} {text cs : List Char} {start here stop : Nat} {quoted : Bool}

theorem lt_of_stop? {r : SliceRule} (h : r.stop? text start = .ok (some stop)) : start < stop := by
  obtain ⟨-, -, h⟩ := Sliced.bind_eq_ok_iff.1 h
  obtain ⟨o, ho, h⟩ := Sliced.bind_eq_ok_iff.1 h
  obtain ⟨p, -, hp⟩ := Sliced.bind_eq_ok_iff.1 ho
  cases hp
  have hstop := (Option.filter_eq_some_iff.1 (Except.ok.inj h)).1
  simpa using (Option.filter_eq_some_iff.1 hstop).2

theorem lt_of_first? {kind : Token.Kind} (h : l.first? text start = .ok (some (kind, stop))) :
    start < stop := by
  induction l with
  | nil => cases h
  | cons r l ih =>
    obtain ⟨o, ho, h⟩ := Sliced.bind_eq_ok_iff.1 h
    cases o with
    | none => exact ih h
    | some i =>
      cases h
      exact lt_of_stop? ho

theorem le_runEnd (h : l.runEnd text start quoted here cs = .ok stop) : here ≤ stop := by
  induction cs generalizing here with
  | nil => exact (Except.ok.inj h).le
  | cons c cs ih =>
    obtain ⟨ends, -, h⟩ := Sliced.bind_eq_ok_iff.1 h
    cases ends with
    | true => exact (Except.ok.inj h).le
    | false => exact (Nat.le_add_right _ _).trans (ih h)

theorem endsRun_start (c : Char) : l.endsRun text start (isQuote c) start c = .ok false := by
  rw [endsRun]
  split
  · rename_i h
    simp only [isQuote, Bool.or_eq_true, decide_eq_true_eq] at h
    rcases h with rfl | rfl <;> rfl
  · rw [if_neg (Nat.lt_irrefl _)]
    rfl

theorem runEnd_start (c : Char) :
    l.runEnd text start (isQuote c) start (c :: cs) =
      l.runEnd text start (isQuote c) (start + c.utf8Size) cs := by
  rw [runEnd, endsRun_start]
  rfl

theorem lt_of_recover {piece : Lexed} (hs : start < byteSize text)
    (h : l.recover text start = .ok (piece, stop)) : start < stop := by
  obtain ⟨rest, hr, h⟩ := Sliced.bind_eq_ok_iff.1 h
  obtain ⟨e, he, h⟩ := Sliced.bind_eq_ok_iff.1 h
  obtain ⟨run, -, h⟩ := Sliced.bind_eq_ok_iff.1 h
  obtain ⟨t, -, h⟩ := Sliced.bind_eq_ok_iff.1 h
  cases h
  cases rest with
  | nil =>
    obtain ⟨taken, rfl, rfl⟩ := Text.sliceFrom_eq_ok_iff.1 hr
    rw [List.append_nil] at hs
    exact absurd hs (Nat.lt_irrefl _)
  | cons c rest =>
    have hle := le_runEnd ((runEnd_start c).symm.trans he)
    have := c.utf8Size_pos
    omega

theorem lt_of_step {piece : Lexed} (hs : start < byteSize text)
    (h : l.step text start = .ok (piece, stop)) : start < stop := by
  obtain ⟨o, ho, h⟩ := Sliced.bind_eq_ok_iff.1 h
  cases o with
  | none => exact lt_of_recover hs h
  | some m =>
    obtain ⟨kind, i⟩ := m
    have hlt := lt_of_first? ho
    dsimp only at h
    split at h
    · cases h
      exact hlt
    · obtain ⟨t, -, h⟩ := Sliced.bind_eq_ok_iff.1 h
      cases h
      exact hlt

def run (l : SliceLexicon) (text : List Char) (start : Nat) : Sliced Lexed :=
  if hs : start < byteSize text then
    match h : l.step text start with
    | .error e => .error e
    | .ok (piece, stop) => do
      have := lt_of_step hs h
      let next ← l.run text stop
      pure ⟨piece.tokens ++ next.tokens, piece.errors ++ next.errors⟩
  else pure ⟨[], []⟩
termination_by byteSize text - start

def tokenize (l : SliceLexicon) (text : List Char) : Sliced Lexed :=
  l.run text 0

end SliceLexicon

structure SliceRule.Follows (r : SliceRule) (r' : Rule) : Prop where
  kind_eq : r.kind = r'.kind
  stop?_eq (c : Cursor) :
    r.stop? c.text c.offset = .ok ((r'.match? c).map fun m ↦ c.offset + byteSize m.text)

theorem Rule.kind_of_match? {r : Rule} {c : Cursor} {m : Match} (h : r.match? c = some m) :
    m.kind = r.kind := by
  obtain ⟨stop, -, h⟩ := Option.bind_eq_some_iff.1 h
  split at h
  · cases h
  · obtain ⟨p, -, rfl⟩ := Option.map_eq_some_iff.1 h
    rfl

theorem SliceRule.Follows.of_matcher {kind : Token.Kind} {m : SliceMatcher} {f : Matcher}
    (h : ∀ c : Cursor, m.moving c.text c.offset = .ok ((f c).filter (c.offset < ·))) :
    Follows ⟨kind, m⟩ ⟨kind, f⟩ where
  kind_eq := rfl
  stop?_eq c := by
    rw [stop?, Cursor.sliceFrom_text, Sliced.ok_bind, h, Sliced.ok_bind, Rule.match?]
    dsimp only
    cases f c with
    | none => rfl
    | some stop =>
      rw [Option.bind_some]
      by_cases hstop : c.offset < stop
      · obtain ⟨n, rfl⟩ := Nat.exists_eq_add_of_le hstop.le
        rw [Option.filter_some, if_pos (decide_eq_true hstop), if_neg (Nat.not_le.2 hstop),
          Nat.add_sub_cancel_left, Option.filter_some]
        have hplace : IsBoundary c.text (c.offset + n) ↔ (splitBytes? n c.after).isSome = true := by
          rw [IsBoundary, Cursor.splitBytes?_add, Option.isSome_map]
        cases hs : splitBytes? n c.after with
        | none => simp [hplace, hs]
        | some p => simp [hplace, hs, (Text.splitBytes?_eq_some_iff.1 hs).2]
      · rw [Option.filter_some, if_neg (by simpa using hstop), if_pos (Nat.not_lt.1 hstop)]
        rfl

namespace SliceLexicon

def Follows (l : SliceLexicon) (l' : Lexicon) : Prop :=
  List.Forall₂ SliceRule.Follows l l'.rules

variable {l : SliceLexicon} {l' : Lexicon}

theorem Follows.first?_eq (h : l.Follows l') (c : Cursor) :
    l.first? c.text c.offset =
      .ok ((l'.match? c).map fun m ↦ (m.kind, c.offset + byteSize m.text)) := by
  obtain ⟨rules⟩ := l'
  rw [Follows] at h
  dsimp only at h
  rw [Lexicon.match?]
  induction h with
  | nil => rfl
  | @cons r r' l rules hr _ ih =>
    rw [first?, hr.stop?_eq, Sliced.ok_bind, List.findSome?_cons]
    cases hm : r'.match? c with
    | none => exact ih
    | some m =>
      rw [hr.kind_eq, ← Rule.kind_of_match? hm]
      rfl

theorem runEnd_quoted (l : SliceLexicon) (text : List Char) (start here : Nat) (cs : List Char) :
    l.runEnd text start true here cs =
      .ok (here + byteSize (cs.takeWhile fun c ↦ !isBreak c)) := by
  induction cs generalizing here with
  | nil => rfl
  | cons c cs ih =>
    rw [runEnd, endsRun, if_pos rfl, List.takeWhile_cons, Sliced.pure_eq_ok, Sliced.ok_bind]
    cases hc : isBreak c with
    | true => rfl
    | false =>
      rw [if_neg nofun, ih, Nat.add_assoc]
      rfl

theorem Follows.runEnd_unquoted (h : l.Follows l') {c : Cursor} {cs : List Char} {start : Nat}
    (hc : c.after = cs) (hs : start < c.offset) :
    l.runEnd c.text start false c.offset cs =
      .ok (c.offset + byteSize (l'.upToMatch c.before cs).1) := by
  induction cs generalizing c with
  | nil => rfl
  | cons ch cs ih =>
    have hcursor : (⟨c.before, ch :: cs⟩ : Cursor) = c := by rw [← hc]
    have hends : l.endsRun c.text start false c.offset ch =
        .ok (isBlank ch || (l'.match? ⟨c.before, ch :: cs⟩).isSome) := by
      rw [endsRun, if_neg nofun, if_pos hs, hcursor, h.first?_eq]
      cases isBlank ch <;> simp
    have hnext := @ih (c.past [ch] cs) rfl (hs.trans_le (by rw [Cursor.offset_past]; omega))
    rw [Cursor.text_past hc, Cursor.offset_past] at hnext
    rw [runEnd, hends, Sliced.ok_bind, Lexicon.upToMatch]
    cases isBlank ch || (l'.match? ⟨c.before, ch :: cs⟩).isSome with
    | true => rfl
    | false =>
      rw [if_neg nofun, if_neg nofun]
      refine hnext.trans ?_
      simp [Cursor.past, Nat.add_assoc]

theorem Follows.runEnd_eq (h : l.Follows l') {c : Cursor} {ch : Char} {cs : List Char}
    (hc : c.after = ch :: cs) :
    l.runEnd c.text c.offset (isQuote ch) c.offset (ch :: cs) =
      .ok (c.offset + byteSize (l'.unmatched c.before ch cs).1) := by
  rw [runEnd_start, Lexicon.unmatched]
  cases isQuote ch with
  | true =>
    rw [runEnd_quoted, if_pos rfl, Text.byteSize_cons, Nat.add_assoc]
  | false =>
    have hlt : c.offset < (c.past [ch] cs).offset := by
      have := ch.utf8Size_pos
      rw [Cursor.offset_past, Text.byteSize_cons]
      omega
    have hrun := h.runEnd_unquoted rfl hlt
    rw [Cursor.text_past hc, Cursor.offset_past] at hrun
    refine hrun.trans ?_
    simp [Cursor.past, Nat.add_assoc]

theorem token_eq {c : Cursor} {taken rest : List Char} (h : c.after = taken ++ rest)
    (kind : Token.Kind) :
    token kind c.text c.offset (c.offset + byteSize taken) = .ok (Lexicon.token kind c taken) := by
  rw [token, Cursor.slice_text h]
  rfl

theorem Follows.recover_eq (h : l.Follows l') {c : Cursor} {ch : Char} {cs : List Char}
    (hc : c.after = ch :: cs) :
    l.recover c.text c.offset =
      .ok (⟨[l'.unmatchedToken c ch cs], [(unmatchedFault (l'.unmatchedToken c ch cs)).diagnostic]⟩,
        (l'.pastUnmatched c ch cs).offset) := by
  have hsplit := hc.trans (l'.unmatched_append c.before ch cs).symm
  have hquoted : c.after.head?.any isQuote = isQuote ch := by
    rw [hc]
    rfl
  rw [recover, Cursor.sliceFrom_text, Sliced.ok_bind]
  dsimp only
  rw [hquoted, hc, h.runEnd_eq hc, Sliced.ok_bind, Cursor.slice_text hsplit, Sliced.ok_bind,
    token_eq hsplit, Sliced.ok_bind]
  have hhead : (l'.unmatched c.before ch cs).1.head? = some ch := by
    rw [Lexicon.unmatched]
    split <;> rfl
  simp only [Sliced.pure_eq_ok, unmatchedFault, Lexicon.unmatchedToken, Lexicon.token,
    String.toList_ofList, hhead, Option.any_some, Lexicon.pastUnmatched, Cursor.offset_past]

theorem Follows.step_eq (h : l.Follows l') {c : Cursor} (hc : c.after ≠ []) :
    ∃ piece d, l.step c.text c.offset = .ok (piece, d.offset) ∧ d.text = c.text ∧
      d.after.length < c.after.length ∧
      l'.scan c = ⟨piece.tokens ++ (l'.scan d).tokens, piece.errors ++ (l'.scan d).errors⟩ := by
  rw [step, h.first?_eq, Sliced.ok_bind]
  cases hm : l'.match? c with
  | some m =>
    have htake := (Lexicon.after_eq_of_match? hm).1
    rw [Lexicon.scan_of_match hm, Option.map_some]
    dsimp only
    cases m.kind.isHidden with
    | true =>
      refine ⟨⟨[], []⟩, c.past m.text m.rest, ?_, Cursor.text_past htake,
        Lexicon.length_rest_lt_of_match? hm, rfl⟩
      rw [Cursor.offset_past]
      rfl
    | false =>
      refine ⟨⟨[Lexicon.token m.kind c m.text], []⟩, c.past m.text m.rest, ?_,
        Cursor.text_past htake, Lexicon.length_rest_lt_of_match? hm, rfl⟩
      rw [if_neg nofun, token_eq htake, Sliced.ok_bind, Cursor.offset_past]
      rfl
  | none =>
    obtain ⟨ch, cs, ha⟩ := List.exists_cons_of_ne_nil hc
    refine ⟨_, l'.pastUnmatched c ch cs, h.recover_eq ha, Lexicon.text_pastUnmatched ha, ?_,
      Lexicon.scan_of_none hm ha⟩
    rw [ha]
    exact l'.length_unmatched_lt c.before ch cs

theorem run_of_step {l : SliceLexicon} {text : List Char} {start stop : Nat} {piece : Lexed}
    (hs : start < byteSize text) (h : l.step text start = .ok (piece, stop)) :
    l.run text start = (l.run text stop).map fun next ↦
      ⟨piece.tokens ++ next.tokens, piece.errors ++ next.errors⟩ := by
  rw [run, dif_pos hs]
  split
  · simp_all
  · rename_i h'
    rw [h] at h'
    cases h'
    cases l.run text stop <;> rfl

/-- No slice of a scan over offsets fails, and it finds what the scan from cursor to cursor does. -/
theorem Follows.run_eq (h : l.Follows l') (c : Cursor) :
    l.run c.text c.offset = .ok (l'.scan c) := by
  -- Each step shortens what is left, so that is what falls.
  induction hn : c.after.length using Nat.strongRecOn generalizing c with
  | ind n ih =>
    subst hn
    by_cases hc : c.after = []
    · have hend : ¬c.offset < byteSize c.text := by
        rw [c.byteSize_text, hc]
        exact Nat.lt_irrefl _
      rw [run, dif_neg hend, Lexicon.scan_of_end hc]
      rfl
    · have hstart : c.offset < byteSize c.text := by
        have := Text.byteSize_pos hc
        rw [c.byteSize_text]
        omega
      obtain ⟨piece, d, hstep, htext, hlt, hscan⟩ := h.step_eq hc
      have hnext := ih _ hlt d rfl
      rw [htext] at hnext
      rw [run_of_step hstart hstep, hnext, hscan]
      rfl

end SliceLexicon

def Kind.sliceLexicon (k : Kind) : SliceLexicon :=
  ⟨.directive, .directive⟩ ::
    (Shape.base ++ k.shapes).map fun s ↦ ⟨s.kind, s.sliceMatcher⟩

theorem Shape.sliceRule_follows (k : Kind) :
    ∀ s ∈ base ++ k.shapes, SliceRule.Follows ⟨s.kind, s.sliceMatcher⟩ s.rule := by
  intro s hs
  refine .of_matcher fun c ↦ ?_
  obtain ⟨p, hp, hsame⟩ := followed k s hs
  have htwice : (s.pattern.nonempty c.after).filter (fun r ↦ !r.1.isEmpty) =
      s.pattern.nonempty c.after := congrFun s.pattern.nonempty_nonempty c.after
  rw [hp.moving.eq_ok, hsame, SliceMatcher.matcher_eq_map_nonempty, SliceMatcher.filter_lt_map,
    htwice]

theorem Kind.sliceLexicon_follows (k : Kind) : k.sliceLexicon.Follows k.grammar.lexicon := by
  have hdirective : SliceRule.Follows ⟨.directive, .directive⟩ ⟨.directive, Matcher.directive⟩ :=
    .of_matcher fun c ↦ by
      rw [SliceMatcher.moving, SliceMatcher.directive_text]
      rfl
  have hshapes : List.Forall₂ SliceRule.Follows
      ((Shape.base ++ k.shapes).map fun s ↦ ⟨s.kind, s.sliceMatcher⟩)
      ((Shape.base ++ k.shapes).map Shape.rule) := by
    rw [List.forall₂_map_left_iff, List.forall₂_map_right_iff, List.forall₂_same]
    exact Shape.sliceRule_follows k
  have hrules : k.grammar.lexicon.rules =
      ⟨.directive, Matcher.directive⟩ :: (Shape.base ++ k.shapes).map Shape.rule := by
    rw [k.rules_lexicon, List.map_append]
    rfl
  rw [SliceLexicon.Follows, hrules]
  exact .cons hdirective hshapes

theorem Kind.sliceLexicon_tokenize (k : Kind) (text : List Char) :
    k.sliceLexicon.tokenize text = .ok (k.grammar.lexicon.tokenize text) := by
  have h := k.sliceLexicon_follows.run_eq (.start text)
  rwa [Cursor.text_start, Cursor.offset_start] at h

end DiagramText
