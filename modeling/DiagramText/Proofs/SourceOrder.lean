import DiagramText.Proofs.Placement
import DiagramText.Proofs.Recovery

namespace DiagramText

open Production

variable {α : Type}

namespace Diagnostic

def isOrphan (d : Diagnostic) : Bool :=
  d.labels.any (·.message = "no period to extend")

def starts (ds : List Diagnostic) : List Nat :=
  ds.filterMap fun d ↦ d.primarySpan.map Span.start

end Diagnostic

def Span.StartsBefore (n : Nat) (s : Span) : Prop :=
  s.start < n

def Span.StartsFrom (n : Nat) (s : Span) : Prop :=
  n ≤ s.start

theorem Span.unionClosed_startsBefore (n : Nat) : UnionClosed (StartsBefore n) :=
  fun _ _ hs _ ↦ Nat.lt_of_le_of_lt (Nat.min_le_left _ _) hs

theorem Span.unionClosed_startsFrom (n : Nat) : UnionClosed (StartsFrom n) :=
  fun _ _ hs ht ↦ Nat.le_min.2 ⟨hs, ht⟩

theorem Fault.exists_primarySpan {Q : Span → Prop} {f : Fault}
    (h : ∀ l ∈ f.diagnostic.labels, Q l.span) : ∃ s, f.diagnostic.primarySpan = some s ∧ Q s := by
  cases f with
  | unexpectedText | unterminatedString | unexpectedToken | endOfLine | endOfInput | notANumber
    | notWholeBits | reversedRange | noLinks | noPeriod =>
    exact ⟨_, rfl, h _ List.mem_cons_self⟩

theorem Fault.isOrphan_of_isOfLine {f : Fault} (h : f.isOfLine = true) :
    f.diagnostic.isOrphan = false := by
  cases f with
  | unexpectedText | unterminatedString | noLinks | noPeriod => cases h
  | unexpectedToken | endOfLine | endOfInput | notANumber | notWholeBits | reversedRange =>
    simp [diagnostic, primary, Diagnostic.isOrphan]

section Statements

variable {statement : Production α} {textEnd : Nat} {ts : List Token}

theorem lineResult_at {Q : Span → Prop} {R : α → Prop} (hm : Meets Q statement R) {run : List Token}
    {stop : Option Token} (ht : TokensAt Q run) (hstop : ∀ t ∈ stop, Q t.span)
    (he : stop = none → Q (.emptyAt textEnd)) :
    ResultAt Q R (lineResult statement textEnd run stop) := by
  unfold lineResult
  cases ho : statement run with
  | accepted a rest => exact (hm.outcome ht ho).1
  | refused why rest =>
    have h := hm.outcome ht ho
    have hplace : (Outcome.refused why (rest ++ stop.toList) : Outcome α).Meets Q R
        (run ++ stop.toList) := by
      cases why with
      | invalid f => exact h
      | expected what =>
        obtain ⟨front, hfront⟩ := h
        exact ⟨front, by rw [← hfront, List.append_assoc]⟩
    have hall : TokensAt Q (run ++ stop.toList) :=
      List.forall_mem_append.2 ⟨ht, fun t ht ↦ hstop t (Option.mem_toList.1 ht)⟩
    refine hplace.fault_at hall fun hn ↦ he ?_
    simpa using (List.append_eq_nil_iff.1 hn).2

variable {R : (Span → Prop) → α → Prop}

/-- At some place of the text one result is over, and the other one has not begun. -/
def Apart (R : (Span → Prop) → α → Prop) (r r' : Except Fault α) : Prop :=
  ∃ n, ResultAt (Span.StartsBefore n) (R (Span.StartsBefore n)) r ∧
    ResultAt (Span.StartsFrom n) (R (Span.StartsFrom n)) r'

theorem lineResult_apart (hm : ∀ Q, Span.UnionClosed Q → Meets Q statement (R Q))
    {run : List Token} {stop : Token} (hrun : ∀ t ∈ run, t.span.start < stop.span.start)
    (hts : ∀ t ∈ ts, stop.span.start < t.span.start) (he : stop.span.start < textEnd) :
    ∀ r ∈ statements statement textEnd ts,
      Apart R (lineResult statement textEnd run (some stop)) r := by
  intro r hr
  refine ⟨stop.span.start + 1, ?_, ?_⟩
  · refine lineResult_at (hm _ (Span.unionClosed_startsBefore _)) ?_ ?_ ?_
    · exact fun t ht ↦ Nat.lt_succ_of_lt (hrun t ht)
    · rintro t ⟨⟩
      exact Nat.lt_succ_self _
    · exact fun hnone ↦ absurd hnone (Option.some_ne_none stop)
  · have hfrom : TokensAt (Span.StartsFrom (stop.span.start + 1)) ts := hts
    exact statements_at (hm _ (Span.unionClosed_startsFrom _)) he hfrom r hr

theorem statements_apart (hs : EndsLine statement)
    (hm : ∀ Q, Span.UnionClosed Q → Meets Q statement (R Q))
    (hp : ts.Pairwise fun t u ↦ t.span.start < u.span.start)
    (he : ∀ t ∈ ts, t.span.start < textEnd) :
    (statements statement textEnd ts).Pairwise (Apart R) := by
  induction hl : ts.length using Nat.strongRecOn generalizing ts with
  | ind n ih =>
    subst hl
    cases h : ts.dropWhile Token.isNewline with
    | nil =>
      rw [statements_of_blank h]
      exact .nil
    | cons u us =>
      obtain ⟨run, tail, more, hcut, hn, -, -, hmore, -, hstatements⟩ :=
        statements_of_endsLine hs textEnd h
      have hsuffix : run ++ tail <:+ ts := by
        rw [← hcut, ← h]
        exact List.dropWhile_suffix _
      have hmoreSuffix : more <:+ ts :=
        (hmore.trans (List.drop_suffix 1 tail)).trans ((List.suffix_append run tail).trans hsuffix)
      have hshort : more.length < ts.length := by
        have hrun : 0 < run.length := List.length_pos_iff.2 hn
        have hle := hsuffix.length_le
        have hdrop := hmore.length_le
        rw [List.length_append] at hle
        rw [List.length_drop] at hdrop
        omega
      rw [hstatements]
      refine List.pairwise_cons.2 ⟨?_, ih _ hshort (hp.sublist hmoreSuffix.sublist)
        (fun t ht ↦ he t (hmoreSuffix.subset ht)) rfl⟩
      cases tail with
      | nil =>
        obtain rfl : more = [] := List.suffix_nil.1 hmore
        rw [statements_of_blank rfl]
        exact fun r hr ↦ absurd hr List.not_mem_nil
      | cons stop tail =>
        have hline : (run ++ stop :: tail).Pairwise fun t u ↦ t.span.start < u.span.start :=
          hp.sublist hsuffix.sublist
        obtain ⟨-, htail, hbefore⟩ := List.pairwise_append.1 hline
        have hstop : stop.span.start < textEnd := he stop (hsuffix.subset (by simp))
        exact lineResult_apart hm (fun t ht ↦ hbefore t ht stop List.mem_cons_self)
          (fun t ht ↦ (List.pairwise_cons.1 htail).1 t (hmore.subset ht)) hstop

end Statements

section Order

variable {R : (Span → Prop) → α → Prop} {results : List (Except Fault α)}

theorem pairwise_faultsOf (h : results.Pairwise (Apart R)) :
    (faultsOf results).Pairwise fun f g ↦
      ∃ n, f.At (Span.StartsBefore n) ∧ g.At (Span.StartsFrom n) := by
  refine h.filterMap _ fun r r' hr f hf g hg ↦ ?_
  obtain ⟨n, hbefore, hfrom⟩ := hr
  cases r with
  | ok a => cases hf
  | error f' =>
    cases r' with
    | ok a => cases hg
    | error g' =>
      obtain rfl := Option.some.inj hf
      obtain rfl := Option.some.inj hg
      exact ⟨n, hbefore, hfrom⟩

theorem pairwise_itemsOf (h : results.Pairwise (Apart R)) :
    (itemsOf results).Pairwise fun a b ↦
      ∃ n, R (Span.StartsBefore n) a ∧ R (Span.StartsFrom n) b := by
  refine h.filterMap _ fun r r' hr a ha b hb ↦ ?_
  obtain ⟨n, hbefore, hfrom⟩ := hr
  cases r with
  | error f => cases ha
  | ok a' =>
    cases r' with
    | error f => cases hb
    | ok b' =>
      obtain rfl := Option.some.inj ha
      obtain rfl := Option.some.inj hb
      exact ⟨n, hbefore, hfrom⟩

theorem starts_increase {fs : List Fault}
    (h : fs.Pairwise fun f g ↦ ∃ n, (∀ l ∈ f.diagnostic.labels, l.span.StartsBefore n) ∧
      ∀ l ∈ g.diagnostic.labels, l.span.StartsFrom n) :
    (Diagnostic.starts (fs.map Fault.diagnostic)).Pairwise (· < ·) := by
  rw [Diagnostic.starts, List.filterMap_map]
  refine h.filterMap _ fun f g hfg i hi j hj ↦ ?_
  obtain ⟨n, hbefore, hfrom⟩ := hfg
  obtain ⟨s, hs, hsn⟩ := Fault.exists_primarySpan hbefore
  obtain ⟨t, ht, htn⟩ := Fault.exists_primarySpan hfrom
  rw [Function.comp_apply, hs] at hi
  rw [Function.comp_apply, ht] at hj
  obtain rfl := Option.some.inj hi
  obtain rfl := Option.some.inj hj
  exact Nat.lt_of_lt_of_le hsn htn

end Order

namespace Kind

variable {k : Kind} {textEnd : Nat} {ts : List Token}

theorem assemble_orphans (header : k.grammar.Header) {items : List k.grammar.Item}
    (h : items.Pairwise fun i j ↦
      ∃ n, k.Guarantees (Span.StartsBefore n) i ∧ k.Guarantees (Span.StartsFrom n) j) :
    (∀ f ∈ (k.grammar.assemble header items).2, f.diagnostic.isOrphan = true) ∧
    (Diagnostic.starts ((k.grammar.assemble header items).2.map Fault.diagnostic)).Pairwise
      (· < ·) ∧
    (k = .timeline ∨ (k.grammar.assemble header items).2 = []) := by
  cases k with
  | info | pie | packet | sankey | architecture =>
    exact ⟨fun f hf ↦ absurd hf List.not_mem_nil, .nil, .inr rfl⟩
  | timeline =>
    obtain ⟨spans, hs, hfaults⟩ :=
      Grammar.Timeline.foldl_step_faults (Statement.entries items) [] []
    have hlate : (Kind.timeline.grammar.assemble header items).2 = spans.map .noPeriod := hfaults
    have hentries : (Statement.entries items).Pairwise fun e e' ↦
        ∃ n, (∀ s ∈ e.continuation?, s.StartsBefore n) ∧
          ∀ s ∈ e'.continuation?, s.StartsFrom n := by
      refine h.filterMap _ fun i j hij e he e' he' ↦ ?_
      obtain ⟨n, hbefore, hfrom⟩ := hij
      exact ⟨n, hbefore e he, hfrom e' he'⟩
    have hspans : ((Statement.entries items).filterMap
        Grammar.Timeline.Entry.continuation?).Pairwise fun s t ↦
          ∃ n, s.StartsBefore n ∧ t.StartsFrom n := by
      refine hentries.filterMap _ fun e e' hee s hs t ht ↦ ?_
      obtain ⟨n, hbefore, hfrom⟩ := hee
      exact ⟨n, hbefore s hs, hfrom t ht⟩
    rw [hlate]
    refine ⟨fun f hf ↦ ?_, starts_increase ?_, .inl rfl⟩
    · obtain ⟨s, -, rfl⟩ := List.mem_map.1 hf
      rfl
    · rw [List.pairwise_map]
      refine (hspans.sublist hs).imp fun {s t} hst ↦ ?_
      obtain ⟨n, hbefore, hfrom⟩ := hst
      exact ⟨n, List.forall_mem_singleton.2 hbefore, List.forall_mem_singleton.2 hfrom⟩

/-- Faults of lines in the order of the text, and then orphans, again in this order. -/
structure InTwoRuns (k : Kind) (fs late : List Fault) : Prop where
  lines : ∀ f ∈ fs, f.diagnostic.isOrphan = false
  lines_increase : (Diagnostic.starts (fs.map Fault.diagnostic)).Pairwise (· < ·)
  orphans : ∀ f ∈ late, f.diagnostic.isOrphan = true
  orphans_increase : (Diagnostic.starts (late.map Fault.diagnostic)).Pairwise (· < ·)
  timeline : k = .timeline ∨ late = []

theorem inTwoRuns_one {f : Fault} (hf : f.diagnostic.isOrphan = false) : InTwoRuns k [f] [] where
  lines := List.forall_mem_singleton.2 hf
  lines_increase := starts_increase (List.pairwise_singleton _ _)
  orphans := fun _ hf ↦ absurd hf List.not_mem_nil
  orphans_increase := .nil
  timeline := .inr rfl

theorem exists_body_faults (header : k.grammar.Header)
    (hp : ts.Pairwise fun t u ↦ t.span.start < u.span.start)
    (he : ∀ t ∈ ts, t.span.start < textEnd) :
    ∃ fs late, (k.grammar.body textEnd header ts).2 = fs ++ late ∧ InTwoRuns k fs late := by
  have hresults : (statements k.grammar.statement textEnd ts).Pairwise (Apart k.Guarantees) :=
    statements_apart k.endsLine_statement (fun Q hQ ↦ k.meets_statement hQ) hp he
  obtain ⟨tree, late, ha⟩ : ∃ tree late, k.grammar.assemble header
      (itemsOf (statements k.grammar.statement textEnd ts)) = (tree, late) := ⟨_, _, rfl⟩
  have hlate := assemble_orphans header (pairwise_itemsOf hresults)
  rw [ha] at hlate
  obtain ⟨horphans, hincrease, htimeline⟩ := hlate
  have hruns : InTwoRuns k (faultsOf (statements k.grammar.statement textEnd ts)) late := by
    have hanywhere : TokensAt (fun _ ↦ True) ts := fun _ _ ↦ trivial
    have hlines : ∀ r ∈ statements k.grammar.statement textEnd ts, ResultAt _ _ r :=
      statements_at (k.meets_statement fun _ _ _ _ ↦ trivial) trivial hanywhere
    refine ⟨fun f hf ↦ Fault.isOrphan_of_isOfLine (faultsOf_at hlines f hf).isOfLine,
      starts_increase ?_, horphans, hincrease, htimeline⟩
    refine (pairwise_faultsOf hresults).imp fun hfg ↦ ?_
    obtain ⟨n, hbefore, hfrom⟩ := hfg
    exact ⟨n, hbefore.labels, hfrom.labels⟩
  rw [Grammar.body_of_assemble ha]
  cases hf : faultsOf (statements k.grammar.statement textEnd ts) ++ late with
  | cons f fs => exact ⟨_, late, hf.symm, hruns⟩
  | nil =>
    cases hl : k.grammar.lacks tree with
    | none => exact ⟨_, late, hf.symm, hruns⟩
    | some fault =>
      obtain rfl := eq_noLinks_of_lacks hl
      exact ⟨[.noLinks textEnd], [], rfl, inTwoRuns_one rfl⟩

theorem exists_tree_faults (k : Kind) (hp : ts.Pairwise fun t u ↦ t.span.start < u.span.start)
    (he : ∀ t ∈ ts, t.span.start < textEnd) :
    ∃ fs late, (k.grammar.tree textEnd ts).2 = fs ++ late ∧ InTwoRuns k fs late := by
  have hanywhere : TokensAt (fun _ ↦ True) ts := fun _ _ ↦ trivial
  unfold Grammar.tree
  cases ho : k.grammar.opening ts with
  | refused why rest =>
    have hline : (why.fault textEnd rest).isOfLine = true :=
      ((k.meets_opening.outcome hanywhere ho).fault_at hanywhere fun _ ↦ trivial).isOfLine
    exact ⟨_, [], rfl, inTwoRuns_one (Fault.isOrphan_of_isOfLine hline)⟩
  | accepted header rest =>
    obtain ⟨-, hs⟩ := k.meets_opening.outcome hanywhere ho
    exact exists_body_faults header (hp.sublist hs.sublist) fun t ht ↦ he t (hs.subset ht)

/-- Parser errors come in the order of the text, but for a timeline's events without a period, which
come last and among themselves in this order; so they are in order just if no such events stand
before another error. -/
theorem parserErrors_in_order (k : Kind) (text : String) :
    let ds := (k.grammar.parse text).parserErrors
    let orphans := ds.filter Diagnostic.isOrphan
    let others := ds.filter (!·.isOrphan)
    ds = others ++ orphans ∧
    (Diagnostic.starts others).Pairwise (· < ·) ∧ (Diagnostic.starts orphans).Pairwise (· < ·) ∧
    (k = .timeline ∨ orphans = []) ∧
    ((Diagnostic.starts ds).Pairwise (· ≤ ·) ↔
      ∀ a ∈ Diagnostic.starts others, ∀ b ∈ Diagnostic.starts orphans, a ≤ b) := by
  intro ds orphans others
  obtain ⟨hstands, hpairwise, -⟩ := Lexicon.tokenize_lossless k.grammar.lexicon text.toList
  have hp : (k.grammar.lexicon.tokenize text.toList).tokens.Pairwise
      fun t u ↦ t.span.start < u.span.start :=
    hpairwise.imp_of_mem fun ht _ htu ↦ Nat.lt_of_lt_of_le (hstands _ ht).1 htu
  have he : ∀ t ∈ (k.grammar.lexicon.tokenize text.toList).tokens,
      t.span.start < Text.byteSize text.toList :=
    fun t ht ↦ Nat.lt_of_lt_of_le (hstands t ht).1 (hstands t ht).2.placedIn.bounded
  obtain ⟨fs, late, hfaults, hruns⟩ := exists_tree_faults k hp he
  have hds : ds = fs.map Fault.diagnostic ++ late.map Fault.diagnostic := by
    rw [← List.map_append, ← hfaults]
    rfl
  have hlines : ∀ d ∈ fs.map Fault.diagnostic, d.isOrphan = false :=
    List.forall_mem_map.2 hruns.lines
  have hlate : ∀ d ∈ late.map Fault.diagnostic, d.isOrphan = true :=
    List.forall_mem_map.2 hruns.orphans
  have horphans : orphans = late.map Fault.diagnostic := by
    simp only [orphans, hds]
    rw [List.filter_append, List.filter_eq_nil_iff.2 fun d hd ↦ by simp [hlines d hd],
      List.filter_eq_self.2 hlate, List.nil_append]
  have hothers : others = fs.map Fault.diagnostic := by
    simp only [others, hds]
    rw [List.filter_append, List.filter_eq_self.2 fun d hd ↦ by simp [hlines d hd],
      List.filter_eq_nil_iff.2 fun d hd ↦ by simp [hlate d hd], List.append_nil]
  rw [horphans, hothers]
  refine ⟨hds, hruns.lines_increase, hruns.orphans_increase, ?_, ?_⟩
  · exact hruns.timeline.imp_right fun hn ↦ by rw [hn, List.map_nil]
  · rw [hds, Diagnostic.starts, List.filterMap_append, List.pairwise_append]
    exact ⟨fun h ↦ h.2.2, fun h ↦ ⟨hruns.lines_increase.imp Nat.le_of_lt,
      hruns.orphans_increase.imp Nat.le_of_lt, h⟩⟩

def misplaced : String :=
  "timeline\n: a\nsection\n"

theorem parserErrors_misplaced :
    Diagnostic.starts (Kind.timeline.grammar.parse misplaced).parserErrors = [13, 9] ∧
      ¬(Diagnostic.starts (Kind.timeline.grammar.parse misplaced).parserErrors).Pairwise
        (· ≤ ·) := by
  have h : Diagnostic.starts (Kind.timeline.grammar.parse misplaced).parserErrors = [13, 9] := by
    decide +kernel
  exact ⟨h, by rw [h]; decide⟩

end Kind

end DiagramText
