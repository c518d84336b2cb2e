import DiagramText.Proofs.LineLocal
import Mathlib.Data.List.Forall2
import Mathlib.Data.List.TakeWhile

namespace DiagramText

open Production

variable {α : Type}

namespace Annotation

theorem endsLine_line (read : Reader) {kind : Token.Kind} (hk : kind ≠ .newline) (what : String)
    (make : String → Annotation) : EndsLine (line read kind what make) :=
  (withinLine_text read hk what).bind_endsLine fun _ ↦ endsLine_endOfLine.bind_pure _

theorem endsLine_production (read : Reader) : EndsLine (production read) := by
  refine EndsLine.bind_nextKind rfl fun k ↦ ?_
  split
  · exact endsLine_line read (by simp) _ _
  · exact endsLine_line read (by simp) _ _
  · exact endsLine_line read (by simp) _ _
  · exact endsLine_expected _

end Annotation

theorem Statement.endsLine_production (read : Reader) {entry : Production α}
    (he : EndsLine entry) : EndsLine (Statement.production read entry) := by
  refine EndsLine.bind_nextKind rfl fun k ↦ ?_
  split
  · refine EndsLine.bind_pure ?_ _
    exact Annotation.endsLine_production read
  · exact he.bind_pure _

namespace Grammar

theorem Pie.endsLine_entry : EndsLine Pie.entry := by
  refine EndsLine.bind_nextKind rfl fun k ↦ ?_
  split
  · exact (withinLine_text _ (by simp) _).bind_endsLine fun _ ↦
      (withinLine_symbol _).bind_endsLine fun _ ↦
      (withinLine_number _ (by simp) _).bind_endsLine fun _ ↦ endsLine_endOfLine.bind_pure _
  · exact endsLine_expected _

theorem Packet.withinLine_bit (what : String) : WithinLine (Packet.bit what) :=
  (withinLine_number _ (by simp) what).bind fun x ↦ by
    split
    · exact withinLine_pure _
    · exact withinLine_invalid _

theorem Packet.endsLine_label : EndsLine Packet.label :=
  (withinLine_symbol _).bind_endsLine fun _ ↦
    (withinLine_text _ (by simp) _).bind_endsLine fun _ ↦ endsLine_endOfLine.bind_pure _

theorem Packet.withinLine_lastBit : WithinLine Packet.lastBit :=
  (withinLine_symbol _).bind fun _ ↦ Packet.withinLine_bit _

theorem Packet.endsLine_range : EndsLine Packet.range := by
  refine (Packet.withinLine_bit _).bind_endsLine fun first ↦ ?_
  refine (withinLine_optional Packet.withinLine_lastBit).bind_endsLine fun last ↦ ?_
  split
  · exact endsLine_invalid _
  · exact Packet.endsLine_label.bind_pure _

theorem Packet.endsLine_width : EndsLine Packet.width :=
  (withinLine_symbol _).bind_endsLine fun _ ↦
    (Packet.withinLine_bit _).bind_endsLine fun _ ↦ Packet.endsLine_label.bind_pure _

theorem Packet.endsLine_entry : EndsLine Packet.entry := by
  refine EndsLine.bind_nextKind rfl fun k ↦ ?_
  split
  · exact Packet.endsLine_range
  · exact Packet.endsLine_width
  · exact endsLine_expected _

theorem Sankey.endsLine_link : EndsLine Sankey.link :=
  (withinLine_text _ (by simp) _).bind_endsLine fun _ ↦
    (withinLine_symbol _).bind_endsLine fun _ ↦
    (withinLine_text _ (by simp) _).bind_endsLine fun _ ↦
    (withinLine_symbol _).bind_endsLine fun _ ↦
    (withinLine_number _ (by simp) _).bind_endsLine fun _ ↦ endsLine_endOfLine.bind_pure _

theorem Sankey.endsLine_entry : EndsLine Sankey.entry := by
  refine EndsLine.bind_nextKind rfl fun k ↦ ?_
  split
  · exact Sankey.endsLine_link
  · exact endsLine_expected _

theorem Timeline.withinLine_event : WithinLine Timeline.event :=
  withinLine_text _ (by simp) _

theorem Timeline.endsLine_entry : EndsLine Timeline.entry := by
  refine EndsLine.bind_nextKind rfl fun k ↦ ?_
  split
  · exact (withinLine_text _ (by simp) _).bind_endsLine fun _ ↦ endsLine_endOfLine.bind_pure _
  · exact endsLine_expected _
  · exact (withinLine_text _ (by simp) _).bind_endsLine fun _ ↦
      (withinLine_many withinLine_event).bind_endsLine fun _ ↦ endsLine_endOfLine.bind_pure _
  · exact (withinLine_many1 withinLine_event).bind_endsLine fun _ ↦ endsLine_endOfLine.bind_pure _
  · exact endsLine_expected _

namespace Architecture

theorem withinLine_identifier (what : String) : WithinLine (identifier what) :=
  (withinLine_text _ (by simp) what).bind fun _ ↦ withinLine_pure _

theorem withinLine_textOf? {kind : Token.Kind} (hk : kind ≠ .newline) :
    WithinLine (textOf? kind) := by
  refine WithinLine.bind_nextKind ?_ fun k ↦ ?_
  · simp [hk.symm]
  · split
    · exact (withinLine_text _ hk _).bind fun _ ↦ withinLine_pure _
    · exact withinLine_pure _

theorem withinLine_parent : WithinLine parent :=
  withinLine_optional ((withinLine_keyword _).bind fun _ ↦ withinLine_identifier _)

theorem endsLine_group : EndsLine group :=
  (withinLine_keyword _).bind_endsLine fun _ ↦
    (withinLine_identifier _).bind_endsLine fun _ ↦
    (withinLine_textOf? (by simp)).bind_endsLine fun _ ↦
    (withinLine_textOf? (by simp)).bind_endsLine fun _ ↦
    withinLine_parent.bind_endsLine fun _ ↦ endsLine_endOfLine.bind_pure _

theorem withinLine_serviceIcon : WithinLine serviceIcon := by
  refine (withinLine_textOf? (by simp)).bind fun t ↦ ?_
  split
  · exact withinLine_pure _
  · exact (withinLine_textOf? (by simp)).bind fun _ ↦ withinLine_pure _

theorem endsLine_service : EndsLine service :=
  (withinLine_keyword _).bind_endsLine fun _ ↦
    (withinLine_identifier _).bind_endsLine fun _ ↦
    withinLine_serviceIcon.bind_endsLine fun _ ↦
    (withinLine_textOf? (by simp)).bind_endsLine fun _ ↦
    withinLine_parent.bind_endsLine fun _ ↦ endsLine_endOfLine.bind_pure _

theorem endsLine_junction : EndsLine junction :=
  (withinLine_keyword _).bind_endsLine fun _ ↦
    (withinLine_identifier _).bind_endsLine fun _ ↦
    withinLine_parent.bind_endsLine fun _ ↦ endsLine_endOfLine.bind_pure _

theorem withinLine_side : WithinLine side :=
  withinLine_satisfying fun t ht ↦ if_neg fun h ↦ by simp [Token.isNewline, h] at ht

theorem withinLine_hasSymbol (s : Symbol) : WithinLine (hasSymbol s) :=
  (withinLine_optional (withinLine_symbol s)).bind fun _ ↦ withinLine_pure _

theorem withinLine_edgeLine : WithinLine edgeLine := by
  refine WithinLine.bind_nextKind rfl fun k ↦ ?_
  split
  · exact (withinLine_symbol _).bind fun _ ↦ withinLine_pure _
  · exact (withinLine_symbol _).bind fun _ ↦
      (withinLine_text _ (by simp) _).bind fun _ ↦
      (withinLine_symbol _).bind fun _ ↦ withinLine_pure _

theorem endsLine_edge : EndsLine edge :=
  (withinLine_identifier _).bind_endsLine fun _ ↦
    (withinLine_hasSymbol _).bind_endsLine fun _ ↦
    (withinLine_symbol _).bind_endsLine fun _ ↦
    withinLine_side.bind_endsLine fun _ ↦
    (withinLine_hasSymbol _).bind_endsLine fun _ ↦
    withinLine_edgeLine.bind_endsLine fun _ ↦
    (withinLine_hasSymbol _).bind_endsLine fun _ ↦
    withinLine_side.bind_endsLine fun _ ↦
    (withinLine_symbol _).bind_endsLine fun _ ↦
    (withinLine_identifier _).bind_endsLine fun _ ↦
    (withinLine_hasSymbol _).bind_endsLine fun _ ↦ endsLine_endOfLine.bind_pure _

theorem endsLine_entry : EndsLine entry := by
  refine EndsLine.bind_nextKind rfl fun k ↦ ?_
  split
  · exact endsLine_group.bind_pure _
  · exact endsLine_service.bind_pure _
  · exact endsLine_junction.bind_pure _
  · exact endsLine_edge.bind_pure _
  · exact endsLine_expected _

end Architecture

end Grammar

theorem Kind.endsLine_statement (k : Kind) : EndsLine k.grammar.statement := by
  cases k with
  | info => exact Annotation.endsLine_production _
  | pie => exact Statement.endsLine_production _ Grammar.Pie.endsLine_entry
  | packet => exact Statement.endsLine_production _ Grammar.Packet.endsLine_entry
  | sankey => exact Statement.endsLine_production _ Grammar.Sankey.endsLine_entry
  | timeline => exact Statement.endsLine_production _ Grammar.Timeline.endsLine_entry
  | architecture => exact Statement.endsLine_production _ Grammar.Architecture.endsLine_entry

/-- The longest stretches of tokens without a line end. -/
def lineRuns (ts : List Token) : List (List Token) :=
  (ts.splitOnP Token.isNewline).filter fun run ↦ !run.isEmpty

theorem lineRuns_newline {t : Token} (ht : t.isNewline = true) (ts : List Token) :
    lineRuns (t :: ts) = lineRuns ts := by
  have h := List.splitOnP_append_cons [] ts (p := Token.isNewline) ht
  simp only [List.nil_append, List.splitOnP_nil, List.singleton_append] at h
  simp [lineRuns, h]

theorem lineRuns_dropWhile (ts : List Token) :
    lineRuns (ts.dropWhile Token.isNewline) = lineRuns ts := by
  induction ts with
  | nil => rfl
  | cons t ts ih =>
    cases ht : t.isNewline with
    | true => rw [List.dropWhile_cons_of_pos ht, ih, lineRuns_newline ht]
    | false => rw [List.dropWhile_cons_of_neg (by simp [ht])]

theorem lineRuns_append {run tail : List Token} (hr : OneLine run) (hn : run ≠ [])
    (ht : StartsAtBreak tail) : lineRuns (run ++ tail) = run :: lineRuns tail := by
  have hrun : run.isEmpty = false := List.isEmpty_eq_false_iff.2 hn
  cases tail with
  | nil => simp [lineRuns, List.splitOnP_eq_singleton hr, hrun]
  | cons t ts =>
    have h := List.splitOnP_append_cons_of_forall_mem hr t (ht t rfl) ts
    rw [lineRuns_newline (ht t rfl)]
    simp [lineRuns, h, hrun]

theorem lineRuns_drop_one {tail : List Token} (ht : StartsAtBreak tail) :
    lineRuns (tail.drop 1) = lineRuns tail := by
  cases tail with
  | nil => rfl
  | cons t tail => exact (lineRuns_newline (ht t rfl) tail).symm

/-- What a statement yields for a line: the item that the line alone gives, or else the fault at
the place in the line, or at its end, where the line alone is refused. -/
inductive Yields (statement : Production α) (textEnd : Nat) (run : List Token) : Except Fault α → Prop
  | item {a : α} : statement run = .accepted a [] → Yields statement textEnd run (.ok a)
  | fault {why : Refusal} {rest : List Token} (stop : Option Token) :
      statement run = .refused why rest → rest <:+ run → (∀ t ∈ stop, t.isNewline = true) →
      Yields statement textEnd run (.error (why.fault textEnd (rest ++ stop.toList)))

theorem Refusal.fault_append (why : Refusal) (textEnd : Nat) (rest tail : List Token) :
    why.fault textEnd (rest ++ tail) = why.fault textEnd (rest ++ tail.head?.toList) := by
  cases why <;> cases rest <;> cases tail <;> rfl

theorem exists_line {u : Token} {us : List Token} (hu : u.isNewline = false) :
    ∃ run tail, u :: us = run ++ tail ∧ run ≠ [] ∧ OneLine run ∧ StartsAtBreak tail ∧
      afterLine (u :: us) = tail.drop 1 := by
  refine ⟨(u :: us).takeWhile (!·.isNewline), (u :: us).dropWhile (!·.isNewline),
    List.takeWhile_append_dropWhile.symm, ?_, ?_, ?_, rfl⟩
  · simp [hu]
  · intro t ht
    simpa using List.mem_takeWhile_imp ht
  · intro t ht
    have := List.head?_dropWhile_not (fun t : Token ↦ !t.isNewline) (u :: us)
    rw [Option.mem_def.1 ht] at this
    simpa using this

theorem statements_of_blank {statement : Production α} {textEnd : Nat} {ts : List Token}
    (h : ts.dropWhile Token.isNewline = []) : statements statement textEnd ts = [] := by
  rw [statements]
  split
  · rfl
  · simp_all

theorem statements_of_line {statement : Production α} {textEnd : Nat} {ts : List Token} {u : Token}
    {us : List Token} (h : ts.dropWhile Token.isNewline = u :: us) :
    statements statement textEnd ts =
      match statement (u :: us) with
      | .accepted a rest =>
        if rest.length < (u :: us).length then .ok a :: statements statement textEnd rest else [.ok a]
      | .refused why rest =>
        .error (why.fault textEnd rest) :: statements statement textEnd (afterLine (u :: us)) := by
  rw [statements]
  split
  · simp_all
  · rename_i u' us' h'
    obtain ⟨rfl, rfl⟩ := List.cons.inj (h.symm.trans h')
    rfl

/-- What a line comes to when it is read alone and `stop` ends it. -/
def lineResult (statement : Production α) (textEnd : Nat) (run : List Token) (stop : Option Token) :
    Except Fault α :=
  match statement run with
  | .accepted a _ => .ok a
  | .refused why rest => .error (why.fault textEnd (rest ++ stop.toList))

theorem yields_lineResult {statement : Production α} (hs : EndsLine statement) (textEnd : Nat)
    {run : List Token} (hr : OneLine run) {stop : Option Token}
    (hstop : ∀ t ∈ stop, t.isNewline = true) :
    Yields statement textEnd run (lineResult statement textEnd run stop) := by
  have hline := @EndsLine.append _ _ hs run [] hr nofun
  unfold lineResult
  cases hrun : statement run with
  | accepted a rest =>
    rw [hrun] at hline
    exact .item (hline.1 ▸ hrun)
  | refused why rest =>
    rw [hrun] at hline
    exact .fault stop hrun hline.1 hstop

/-- The first statement reads the first line alone, and the others begin after the line's end. -/
theorem statements_of_endsLine {statement : Production α} (hs : EndsLine statement) (textEnd : Nat)
    {ts : List Token} {u : Token} {us : List Token} (h : ts.dropWhile Token.isNewline = u :: us) :
    ∃ run tail more, u :: us = run ++ tail ∧ run ≠ [] ∧ OneLine run ∧ StartsAtBreak tail ∧
      more <:+ tail.drop 1 ∧ lineRuns more = lineRuns tail ∧
      statements statement textEnd ts =
        lineResult statement textEnd run tail.head? :: statements statement textEnd more := by
  have hu : u.isNewline = false := by
    have := List.head?_dropWhile_not Token.isNewline ts
    rw [h] at this
    simpa using this
  obtain ⟨run, tail, he, hn, hr, ht, ha⟩ := @exists_line u us hu
  -- Alone or with the lines after it, the statement comes out the same on this line.
  have hline := hs.append hr ht
  rw [statements_of_line h, ha, he]
  cases hrun : statement run with
  | accepted a rest =>
    rw [hrun] at hline
    have hshort : (tail.dropWhile Token.isNewline).length ≤ tail.length :=
      (List.dropWhile_suffix _).length_le
    have hlen : 0 < run.length := List.length_pos_iff.2 hn
    have hmore : tail.dropWhile Token.isNewline <:+ tail.drop 1 := by
      cases tail with
      | nil => exact List.suffix_rfl
      | cons t tail =>
        rw [List.dropWhile_cons_of_pos (ht t rfl)]
        exact List.dropWhile_suffix _
    refine ⟨run, tail, _, rfl, hn, hr, ht, hmore, lineRuns_dropWhile tail, ?_⟩
    simp only [hline.2, lineResult, hrun]
    exact if_pos (by rw [List.length_append]; omega)
  | refused why rest =>
    rw [hrun] at hline
    refine ⟨run, tail, _, rfl, hn, hr, ht, List.suffix_rfl, lineRuns_drop_one ht, ?_⟩
    simp only [hline.2, lineResult, hrun]
    rw [why.fault_append]

theorem forall₂_yields {statement : Production α} (hs : EndsLine statement) (textEnd : Nat)
    (ts : List Token) :
    List.Forall₂ (Yields statement textEnd) (lineRuns ts) (statements statement textEnd ts) := by
  induction hl : ts.length using Nat.strongRecOn generalizing ts with
  | ind n ih =>
    subst hl
    have hle : (ts.dropWhile Token.isNewline).length ≤ ts.length :=
      (List.dropWhile_suffix _).length_le
    rw [← lineRuns_dropWhile ts]
    cases h : ts.dropWhile Token.isNewline with
    | nil =>
      rw [statements_of_blank h]
      exact .nil
    | cons u us =>
      obtain ⟨run, tail, more, he, hn, hr, ht, hmore, hruns, hstatements⟩ :=
        statements_of_endsLine hs textEnd h
      have hlen : 0 < run.length := List.length_pos_iff.2 hn
      have hshort : more.length ≤ tail.length := by
        have := hmore.length_le
        rw [List.length_drop] at this
        omega
      rw [h, he, List.length_append] at hle
      rw [he, lineRuns_append hr hn ht, hstatements, ← hruns]
      exact .cons (yields_lineResult hs textEnd hr ht) (ih _ (by omega) _ rfl)

def Outcome.item? : Outcome α → Option α
  | .accepted a _ => some a
  | .refused _ _ => none

theorem Yields.item?_eq {statement : Production α} {textEnd : Nat} {run : List Token}
    {result : Except Fault α} (h : Yields statement textEnd run result) :
    (statement run).item? = result.toOption := by
  cases h with
  | item h => rw [h]; rfl
  | fault _ h _ _ => rw [h]; rfl

theorem itemsOf_of_yields {statement : Production α} {textEnd : Nat} {runs : List (List Token)}
    {results : List (Except Fault α)}
    (h : List.Forall₂ (Yields statement textEnd) runs results) :
    itemsOf results = runs.filterMap fun run ↦ (statement run).item? := by
  induction h with
  | nil => rfl
  | @cons run result runs results hy _ ih =>
    have hi := hy.item?_eq
    rw [List.filterMap_cons, hi, ← ih]
    cases result <;> rfl

theorem length_faultsOf_of_yields {statement : Production α} {textEnd : Nat}
    {runs : List (List Token)} {results : List (Except Fault α)}
    (h : List.Forall₂ (Yields statement textEnd) runs results) :
    (faultsOf results).length = runs.countP fun run ↦ (statement run).item?.isNone := by
  induction h with
  | nil => rfl
  | @cons run result runs results hy _ ih =>
    have hi := hy.item?_eq
    rw [List.countP_cons, hi, ← ih]
    cases result <;> simp [faultsOf, Except.toOption]

theorem Grammar.parserErrors_eq {g : Grammar} {text : String} {header : g.Header}
    {rest : List Token}
    (h : g.opening (g.lexicon.tokenize text.toList).tokens = .accepted header rest) :
    ∃ late, (g.parse text).parserErrors =
      (faultsOf (statements g.statement (Text.byteSize text.toList) rest) ++ late).map
        Fault.diagnostic := by
  simp only [Grammar.parse, Grammar.tree, h, Grammar.body]
  split
  · rename_i hf
    split
    · exact ⟨_, by rw [(List.append_eq_nil_iff.1 hf).1]; rfl⟩
    · exact ⟨[], by rw [(List.append_eq_nil_iff.1 hf).1]; rfl⟩
  · exact ⟨_, rfl⟩

/-- After the header, the text is read line by line: each line yields, in order, what it yields
alone, be it an item or one fault, and what is reported begins with these faults. -/
theorem statements_by_line (k : Kind) (text : String) {header : k.grammar.Header}
    {rest : List Token}
    (h : k.grammar.opening (k.grammar.lexicon.tokenize text.toList).tokens = .accepted header rest) :
    List.Forall₂ (Yields k.grammar.statement (Text.byteSize text.toList)) (lineRuns rest)
      (statements k.grammar.statement (Text.byteSize text.toList) rest) ∧
    itemsOf (statements k.grammar.statement (Text.byteSize text.toList) rest) =
      (lineRuns rest).filterMap (fun run ↦ (k.grammar.statement run).item?) ∧
    (faultsOf (statements k.grammar.statement (Text.byteSize text.toList) rest)).length =
      (lineRuns rest).countP (fun run ↦ (k.grammar.statement run).item?.isNone) ∧
    ∃ late, (k.grammar.parse text).parserErrors =
      (faultsOf (statements k.grammar.statement (Text.byteSize text.toList) rest) ++ late).map
        Fault.diagnostic := by
  have hy := forall₂_yields k.endsLine_statement (Text.byteSize text.toList) rest
  exact ⟨hy, itemsOf_of_yields hy, length_faultsOf_of_yields hy, Grammar.parserErrors_eq h⟩

def brokenPie : String :=
  "pie\n?\n'a' : 1"

def brokenPieLines : List Token :=
  [⟨.newline, "\n", ⟨3, 4⟩⟩, ⟨.invalid, "?", ⟨4, 5⟩⟩, ⟨.newline, "\n", ⟨5, 6⟩⟩,
    ⟨.string, "'a'", ⟨6, 9⟩⟩, ⟨.symbol .colon, ":", ⟨10, 11⟩⟩, ⟨.number, "1", ⟨12, 13⟩⟩]

theorem opening_brokenPie :
    Kind.pie.grammar.opening (Kind.pie.grammar.lexicon.tokenize brokenPie.toList).tokens =
      .accepted false brokenPieLines := by
  have ht : (Kind.pie.grammar.lexicon.tokenize brokenPie.toList).tokens =
      ⟨.keyword .pie, "pie", ⟨0, 3⟩⟩ :: brokenPieLines := by decide +kernel
  rw [ht]
  rfl

theorem statements_by_line_brokenPie :
    Kind.pie.grammar.opening (Kind.pie.grammar.lexicon.tokenize brokenPie.toList).tokens =
      .accepted false brokenPieLines ∧
    (itemsOf (statements Kind.pie.grammar.statement (Text.byteSize brokenPie.toList)
      brokenPieLines)).length = 1 ∧
    (faultsOf (statements Kind.pie.grammar.statement (Text.byteSize brokenPie.toList)
      brokenPieLines)).length = 1 := by
  obtain ⟨-, hi, hf, -⟩ := statements_by_line .pie brokenPie opening_brokenPie
  exact ⟨opening_brokenPie, by rw [hi]; rfl, by rw [hf]; rfl⟩

end DiagramText
