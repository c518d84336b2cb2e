import DiagramText.Proofs.QuotedLabels

namespace DiagramText

/-- A section as it is written: with the digits of its value. -/
structure Pie.Entry where
  label : String
  digits : String
  value : Binary64
  quotable : IsQuotable label.toList
  numeral : Numeral digits.toList
  value_eq : Binary64.ofText? digits.toList = some value

namespace Pie.Entry

open Grammar.Pie (entry sectionLine)

def line (e : Entry) : String :=
  "\"" ++ e.label ++ "\" : " ++ e.digits

def toSection (e : Entry) : Pie.Section :=
  ⟨e.label, e.value⟩

def labelToken (e : Entry) : Token :=
  .unplaced .string ('"' :: (e.label.toList ++ ['"']))

def colon : Token :=
  .unplaced (.symbol .colon) [':']

def valueToken (e : Entry) : Token :=
  .unplaced .number e.digits.toList

def run (e : Entry) : List Token :=
  [e.labelToken, colon, e.valueToken]

theorem writes_label (e : Entry) :
    Kind.pie.Writes (fun _ ↦ True) ('"' :: (e.label.toList ++ ['"'])) [e.labelToken] := by
  refine Kind.writes_of_next? rfl fun rest _ ↦ ?_
  simpa using Kind.next?_string (by decide) e.quotable rest

theorem writes_colon : Kind.pie.Writes (fun _ ↦ True) [':'] [colon] :=
  Kind.writes_of_next? rfl fun _ _ ↦ rfl

theorem writes_value (e : Entry) :
    Kind.pie.Writes Kind.LineOver e.digits.toList [e.valueToken] :=
  Kind.writes_of_next? rfl fun _ hr ↦
    Kind.next?_number (by decide) e.numeral (numberOver_of_lineOver hr)

theorem writes_line (e : Entry) : Kind.pie.Writes Kind.LineOver e.line.toList e.run := by
  have hvalue := Kind.writes_space.append e.writes_value fun rest _ ↦
    Kind.solid_numeral e.numeral rest
  have hcolon := writes_colon.append hvalue fun _ _ ↦ trivial
  have htail := Kind.writes_space.append hcolon fun rest _ ↦
    ⟨':', _, rfl, by decide, by decide, by decide⟩
  have hline : e.line.toList =
      '"' :: (e.label.toList ++ ['"']) ++ ([' '] ++ ([':'] ++ ([' '] ++ e.digits.toList))) := by
    simp [line]
  rw [hline]
  exact e.writes_label.append htail fun _ _ ↦ trivial

theorem entry_run (e : Entry) : entry e.run = .accepted e.toSection [] := by
  have hread : Reader.common e.labelToken = .ok (.text e.label) := by
    rw [labelToken, Reader.common_string, String.ofList_toList]
  have hlabel (ts : List Token) :
      Production.text Reader.common .string "section label" (e.labelToken :: ts) =
        .accepted ⟨e.label, default⟩ ts :=
    Production.text_cons rfl hread _ ts
  have hcolon (ts : List Token) : Production.symbol .colon (colon :: ts) = .accepted colon ts := rfl
  have hvalue : Production.number Reader.common .number "section value" [e.valueToken] =
      .accepted ⟨e.value, default⟩ [] :=
    Production.number_cons rfl (Reader.common_number e.value_eq) _ []
  have hsection : sectionLine e.run = .accepted e.toSection [] := by
    simp only [sectionLine, run, Production.bind_apply, hlabel, hcolon, hvalue]
    rfl
  have hkind : e.run.head?.map Token.kind = some .string := rfl
  simp only [entry, Production.bind_apply, Production.nextKind_eq, hkind, hsection]

theorem readsLine (e : Entry) : Kind.pie.ReadsLine e.line.toList (.entry e.toSection) := by
  have hrun : OneLine e.run :=
    List.forall_mem_cons.2 ⟨rfl, List.forall_mem_cons.2 ⟨rfl, List.forall_mem_singleton.2 rfl⟩⟩
  exact ⟨e.run, List.cons_ne_nil _ _, hrun, e.writes_line,
    Statement.production_of_entry rfl e.entry_run⟩

end Pie.Entry

def Pie.headline (showData : Bool) : String :=
  if showData then "pie showData" else "pie"

theorem Kind.pie_opensLine (showData : Bool) :
    pie.OpensLine (Pie.headline showData).toList showData := by
  have hpie : pie.Writes (fun rest ↦ LineOver rest ∨ ∃ cs, rest = ' ' :: cs) "pie".toList
      [.unplaced (.keyword .pie) "pie".toList] := by
    refine writes_of_next? rfl fun rest hr ↦ ?_
    rcases hr with (rfl | ⟨rest, rfl⟩) | ⟨rest, rfl⟩ <;> rfl
  cases showData with
  | false =>
    refine ⟨⟨'p', _, rfl, by decide, by decide⟩, _, hpie.mono fun _ ↦ .inl, fun tail ht ↦ ?_⟩
    refine ⟨tail, ?_, rfl⟩
    -- A line end is no keyword, so the first line is over.
    cases tail with
    | nil => rfl
    | cons t tail =>
      have hkind : t.kind = .newline := of_decide_eq_true (ht t rfl)
      have hshown : Production.optional (Production.keyword .showData) (t :: tail) =
          .accepted none (t :: tail) := by
        simp [Production.optional, Production.keyword, Production.token, Production.satisfying,
          hkind]
      have hopen : pie.grammar.opening
          ([.unplaced (.keyword .pie) "pie".toList] ++ t :: tail) =
            (Production.optional (Production.keyword .showData) >>= fun shown ↦
              pure shown.isSome) (t :: tail) := rfl
      rw [hopen, Production.bind_apply, hshown]
      rfl
  | true =>
    have hshow : pie.Writes LineOver "showData".toList
        [.unplaced (.keyword .showData) "showData".toList] := by
      refine writes_of_next? rfl fun rest hr ↦ ?_
      rcases hr with rfl | ⟨rest, rfl⟩ <;> rfl
    have hmore := writes_space.append hshow fun rest _ ↦
      ⟨'s', _, rfl, by decide, by decide, by decide⟩
    exact ⟨⟨'p', _, rfl, by decide, by decide⟩, _, hpie.append hmore fun rest _ ↦ .inr ⟨_, rfl⟩,
      fun tail _ ↦ ⟨tail, rfl, rfl⟩⟩

namespace Pie

/-- Sections written out, one after another, are read back, with their labels as they are. -/
theorem parse_entries (showData : Bool) (entries : List Entry) {ending : String}
    (he : ending ∈ ["", "\n"]) :
    Kind.pie.parse (onLines (headline showData) (entries.map Entry.line) ++ ending) =
      .ok (.pie { showData, sections := entries.map Entry.toSection }) := by
  have hassemble : Grammar.Pie.assemble showData (entries.map fun e ↦ .entry e.toSection) =
      (.pie { showData, sections := entries.map Entry.toSection }, []) := by
    rw [Grammar.Pie.assemble, Statement.entries_map, Statement.annotations_map]
  exact Kind.parse_of_lines (Kind.pie_opensLine showData) (fun e _ ↦ e.readsLine) he hassemble rfl

def half : Binary64 :=
  ⟨false, 4503599627370496, -53, by decide⟩

def seven : Binary64 :=
  ⟨false, 7881299347898368, -50, by decide⟩

def lookalikes : List Entry :=
  have hhalf : Numeral "0.5".toList :=
    have h : Numeral (['0'] ++ '.' :: ['5']) :=
      .point (by simp) (List.forall_mem_singleton.2 rfl) (by simp) (List.forall_mem_singleton.2 rfl)
    h
  have hseven : Numeral "007".toList := .whole (by decide) (List.all_eq_true.1 rfl)
  [⟨"", "0.5", half, by decide, hhalf, by decide +kernel⟩,
    ⟨" 'a' : 1 %% note ", "007", seven, by decide, hseven, by decide +kernel⟩,
    ⟨"title %%\x7bé\x7d%%", "0.5", half, by decide, hhalf, by decide +kernel⟩,
    ⟨" 'a' : 1 %% note ", "0.5", half, by decide, hhalf, by decide +kernel⟩]

theorem parse_entries_lookalikes :
    Kind.pie.parse ("pie showData\n" ++
      "\"\" : 0.5\n" ++
      "\" 'a' : 1 %% note \" : 007\n" ++
      "\"title %%\x7bé\x7d%%\" : 0.5\n" ++
      "\" 'a' : 1 %% note \" : 0.5\n") =
      .ok (.pie
        { showData := true
          sections := [⟨"", half⟩, ⟨" 'a' : 1 %% note ", seven⟩, ⟨"title %%\x7bé\x7d%%", half⟩,
            ⟨" 'a' : 1 %% note ", half⟩] }) :=
  @parse_entries true lookalikes "\n" (by decide)

end Pie

end DiagramText
