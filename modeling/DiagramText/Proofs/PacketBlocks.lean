import DiagramText.Proofs.QuotedLabels
import DiagramText.Proofs.WholeNumbers

namespace DiagramText

namespace Packet

open Grammar.Packet (bit entry label lastBit maxBit range width)

/-- Digits of a number that a block may have, with or without zeros before them. -/
structure IsBits (s : String) (n : Nat) : Prop where
  ne_empty : s ≠ ""
  digits : ∀ c ∈ s.toList, c.isDigit = true
  value : Decimal.ofDigits s.toList = n
  le : n ≤ maxBit

theorem isBits_repr {n : Nat} (h : n ≤ maxBit) : IsBits n.repr n := by
  have hdigits : n.repr.toList = Nat.toDigits 10 n := by
    rw [Nat.repr_eq_ofList_toDigits, String.toList_ofList]
  refine ⟨fun he ↦ Nat.toDigits_ne_nil (hdigits.symm.trans (he ▸ rfl)), fun c hc ↦ ?_, ?_, h⟩
  · exact Nat.isDigit_of_mem_toDigits (by decide) (by decide) (hdigits ▸ hc)
  · rw [hdigits, Decimal.ofDigits, Nat.ofDigitChars_ten_toDigits]

def labelText (s : String) : String :=
  ": \"" ++ s ++ "\""

/-- The line of the block: `first-last: "label"`, `first: "label"` or `+bits: "label"`. -/
inductive Block.WrittenAs : Block → String → Prop
  | range {a b : Nat} {s t label : String} : IsBits s a → IsBits t b → a ≤ b →
      IsQuotable label.toList →
      WrittenAs ⟨some a, some b, none, label⟩ (s ++ "-" ++ t ++ labelText label)
  | single {a : Nat} {s label : String} : IsBits s a → IsQuotable label.toList →
      WrittenAs ⟨some a, none, none, label⟩ (s ++ labelText label)
  | width {n : Nat} {s label : String} : IsBits s n → IsQuotable label.toList →
      WrittenAs ⟨none, none, some n, label⟩ ("+" ++ s ++ labelText label)

def bitsToken (s : String) : Token :=
  .unplaced .number s.toList

def mark (y : Symbol) : Token :=
  .unplaced (.symbol y) y.text.toList

def labelRun (s : String) : List Token :=
  [mark .colon, .unplaced .string ('"' :: (s.toList ++ ['"']))]

section Writes

variable {n : Nat} {s label : String}

theorem IsBits.numeral (h : IsBits s n) : Numeral s.toList :=
  .whole (by simpa using h.ne_empty) h.digits

theorem IsBits.writes (h : IsBits s n) :
    Kind.packet.Writes NumberOver s.toList [bitsToken s] :=
  Kind.writes_of_next? rfl fun _ hr ↦ Kind.next?_number (by decide) h.numeral hr

theorem writes_mark {y : Symbol} (hy : y ∈ [.colon, .minus, .plus]) :
    Kind.packet.Writes (fun _ ↦ True) y.text.toList [mark y] := by
  refine Kind.writes_of_next? rfl fun rest _ ↦ ?_
  simp only [List.mem_cons, List.not_mem_nil, or_false] at hy
  rcases hy with rfl | rfl | rfl <;> rfl

theorem writes_label (h : IsQuotable label.toList) :
    Kind.packet.Writes (fun _ ↦ True) (labelText label).toList (labelRun label) := by
  have htext : (labelText label).toList =
      Symbol.colon.text.toList ++ ([' '] ++ ('"' :: (label.toList ++ ['"']))) := by
    simp [labelText, Symbol.text]
  rw [htext]
  have hstring : Kind.packet.Writes (fun _ ↦ True) ('"' :: (label.toList ++ ['"']))
      [.unplaced .string ('"' :: (label.toList ++ ['"']))] := by
    refine Kind.writes_of_next? rfl fun rest _ ↦ ?_
    simpa using Kind.next?_string (by decide) h rest
  have hspace := Kind.writes_space.append hstring fun rest _ ↦
    ⟨'"', _, rfl, by decide, by decide, by decide⟩
  exact (writes_mark (y := .colon) (by decide)).append hspace fun _ _ ↦ trivial

end Writes

section Reads

variable {a b n : Nat} {s t : String}

theorem symbol_mark (y : Symbol) (ts : List Token) :
    Production.symbol y (mark y :: ts) = .accepted (mark y) ts :=
  Production.token_cons rfl _ ts

theorem bit_bitsToken (h : IsBits s n) (what : String) (ts : List Token) :
    bit what (bitsToken s :: ts) = .accepted ⟨n, default⟩ ts := by
  have hsize : Decimal.ofDigits s.toList < Nat.pow 2 53 := by
    rw [h.value]
    exact Nat.lt_of_le_of_lt h.le (by decide)
  obtain ⟨x, hx, hn⟩ := Binary64.exists_ofText?_digits (by simpa using h.ne_empty) h.digits hsize
  have hnumber : Production.number Reader.common .number what (bitsToken s :: ts) =
      .accepted ⟨x, default⟩ ts :=
    Production.number_cons rfl (Reader.common_number hx) what ts
  rw [h.value] at hn
  simp only [bit, Production.bind_apply, hnumber, hn, Option.filter_some, decide_eq_true h.le,
    if_true, Production.pure_apply]

theorem label_labelRun (s : String) : label (labelRun s) = .accepted s [] := by
  have hread : Reader.common (.unplaced .string ('"' :: (s.toList ++ ['"']))) = .ok (.text s) := by
    rw [Reader.common_string, String.ofList_toList]
  have htext : Production.text Reader.common .string "block label"
      [.unplaced .string ('"' :: (s.toList ++ ['"']))] = .accepted ⟨s, default⟩ [] :=
    Production.text_cons rfl hread _ []
  simp only [label, labelRun, Production.bind_apply, symbol_mark, htext]
  rfl

theorem lastBit_run (h : IsBits s n) (ts : List Token) :
    Production.optional lastBit (mark .minus :: bitsToken s :: ts) =
      .accepted (some ⟨n, default⟩) ts := by
  simp only [Production.optional, lastBit, Production.bind_apply, symbol_mark, bit_bitsToken h]

theorem entry_bitsToken (s : String) (ts : List Token) :
    entry (bitsToken s :: ts) = range (bitsToken s :: ts) := by
  have hkind : (bitsToken s :: ts).head?.map Token.kind = some .number := rfl
  simp only [entry, Production.bind_apply, Production.nextKind_eq, hkind]

theorem entry_range (hs : IsBits s a) (ht : IsBits t b) (h : a ≤ b) (l : String) :
    entry (bitsToken s :: mark .minus :: bitsToken t :: labelRun l) =
      .accepted ⟨some a, some b, none, l⟩ [] := by
  rw [entry_bitsToken]
  simp only [range, Production.bind_apply, bit_bitsToken hs, lastBit_run ht, Option.filter_some,
    decide_eq_false (Nat.not_lt.2 h), Bool.false_eq_true, if_false, label_labelRun]
  rfl

theorem entry_single (h : IsBits s a) (l : String) :
    entry (bitsToken s :: labelRun l) = .accepted ⟨some a, none, none, l⟩ [] := by
  have hlast : Production.optional lastBit (labelRun l) = .accepted none (labelRun l) := rfl
  rw [entry_bitsToken]
  simp only [range, Production.bind_apply, bit_bitsToken h, hlast, Option.filter_none,
    label_labelRun]
  rfl

theorem entry_width (h : IsBits s n) (l : String) :
    entry (mark .plus :: bitsToken s :: labelRun l) = .accepted ⟨none, none, some n, l⟩ [] := by
  have hkind : (mark .plus :: bitsToken s :: labelRun l).head?.map Token.kind =
      some (.symbol .plus) := rfl
  simp only [entry, width, Production.bind_apply, Production.nextKind_eq, hkind, symbol_mark,
    bit_bitsToken h, label_labelRun]
  rfl

end Reads

theorem readsLine_of_label {text : List Char} {t : Token} {ts : List Token} {label : String}
    {block : Block} (ht : Annotation.opensWith t.kind = false) (hr : OneLine (t :: ts))
    (hw : Kind.packet.Writes NumberOver text (t :: ts)) (hl : IsQuotable label.toList)
    (he : entry (t :: ts ++ labelRun label) = .accepted block []) :
    Kind.packet.ReadsLine (text ++ (labelText label).toList) (.entry block) := by
  have hlabel : OneLine (labelRun label) :=
    List.forall_mem_cons.2 ⟨rfl, List.forall_mem_singleton.2 rfl⟩
  have hover (rest : List Char) : NumberOver ((labelText label).toList ++ rest) := by
    simpa [labelText] using numberOver_cons (by decide) (by decide) _
  exact ⟨t :: ts ++ labelRun label, nofun, List.forall_mem_append.2 ⟨hr, hlabel⟩,
    (hw.append (writes_label hl) fun rest _ ↦ hover rest).mono fun _ _ ↦ trivial,
    Statement.production_of_entry ht he⟩

theorem Block.WrittenAs.readsLine {block : Block} {line : String} (h : block.WrittenAs line) :
    Kind.packet.ReadsLine line.toList (.entry block) := by
  cases h with
  | @range a b s t label hs ht hab hl =>
    have hwrites := hs.writes.append
      ((writes_mark (y := .minus) (by decide)).append ht.writes fun _ _ ↦ trivial)
      fun rest _ ↦ numberOver_cons (by decide) (by decide) _
    have hrun : OneLine [bitsToken s, mark .minus, bitsToken t] :=
      List.forall_mem_cons.2 ⟨rfl, List.forall_mem_cons.2 ⟨rfl, List.forall_mem_singleton.2 rfl⟩⟩
    have hline : (s ++ "-" ++ t ++ labelText label).toList =
        s.toList ++ (Symbol.minus.text.toList ++ t.toList) ++ (labelText label).toList := by
      simp [Symbol.text]
    rw [hline]
    exact readsLine_of_label rfl hrun hwrites hl (entry_range hs ht hab label)
  | @single a s label hs hl =>
    rw [String.toList_append]
    exact readsLine_of_label rfl (List.forall_mem_singleton.2 rfl) hs.writes hl
      (entry_single hs label)
  | @width n s label hs hl =>
    have hwrites := (writes_mark (y := .plus) (by decide)).append hs.writes fun _ _ ↦ trivial
    have hrun : OneLine [mark .plus, bitsToken s] :=
      List.forall_mem_cons.2 ⟨rfl, List.forall_mem_singleton.2 rfl⟩
    have hline : ("+" ++ s ++ labelText label).toList =
        Symbol.plus.text.toList ++ s.toList ++ (labelText label).toList := by
      simp [Symbol.text]
    rw [hline]
    exact readsLine_of_label rfl hrun hwrites hl (entry_width hs label)

end Packet

theorem Kind.packet_opensLine :
    packet.OpensLine "packet-beta".toList Keyword.packetBeta where
  head := ⟨'p', _, rfl, by decide, by decide⟩
  cuts := by
    refine ⟨[.unplaced (.keyword .packetBeta) "packet-beta".toList],
      writes_of_next? rfl fun rest hr ↦ ?_, fun tail _ ↦ ⟨tail, rfl, rfl⟩⟩
    rcases hr with rfl | ⟨rest, rfl⟩ <;> rfl

namespace Packet

/-- Blocks written out, one after another, are read back. -/
theorem parse_blocks {blocks : List Block} {lines : List String}
    (h : List.Forall₂ Block.WrittenAs blocks lines) {ending : String} (he : ending ∈ ["", "\n"]) :
    Kind.packet.parse (onLines "packet-beta" lines ++ ending) = .ok (.packet { blocks }) := by
  obtain ⟨hlength, hzip⟩ := List.forall₂_iff_zip.1 h
  have hfst : (blocks.zip lines).map Prod.fst = blocks := List.map_fst_zip (Nat.le_of_eq hlength)
  have hsnd : (blocks.zip lines).map Prod.snd = lines :=
    List.map_snd_zip (Nat.le_of_eq hlength.symm)
  have hreads : ∀ p ∈ blocks.zip lines, Kind.packet.ReadsLine p.2.toList (.entry p.1) :=
    fun p hp ↦ (hzip hp).readsLine
  have hassemble : Grammar.Packet.assemble .packetBeta
      ((blocks.zip lines).map fun p ↦ .entry p.1) = (.packet { blocks }, []) := by
    rw [Grammar.Packet.assemble, Statement.entries_map, Statement.annotations_map, hfst]
  have hparse := Kind.parse_of_lines Kind.packet_opensLine hreads he hassemble rfl
  rwa [hsnd] at hparse

def extremes : List Block :=
  [⟨some 0, some 4294967295, none, "0-15: 'Source' %% port"⟩, ⟨some 7, none, none, ""⟩,
    ⟨some 7, some 7, none, "title %%\x7bé"⟩, ⟨none, none, some 4294967295, "+8 packet-beta"⟩]

def extremeLines : List String :=
  ["0-4294967295: \"0-15: 'Source' %% port\"", "007: \"\"", "7-07: \"title %%\x7bé\"",
    "+4294967295: \"+8 packet-beta\""]

theorem writtenAs_extremes : List.Forall₂ Block.WrittenAs extremes extremeLines := by
  have hzero : IsBits "0" 0 := @isBits_repr 0 (by decide)
  have hmax : IsBits "4294967295" 4294967295 := @isBits_repr 4294967295 (by decide)
  have hpadded : IsBits "007" 7 := ⟨by decide, List.all_eq_true.1 rfl, by decide, by decide⟩
  have hseven : IsBits "7" 7 := @isBits_repr 7 (by decide)
  have hoften : IsBits "07" 7 := ⟨by decide, List.all_eq_true.1 rfl, by decide, by decide⟩
  exact .cons (.range hzero hmax (by decide) (by decide)) (.cons (.single hpadded (by decide))
    (.cons (.range hseven hoften (by decide) (by decide)) (.cons (.width hmax (by decide)) .nil)))

theorem parse_blocks_extremes :
    Kind.packet.parse ("packet-beta\n" ++
      "0-4294967295: \"0-15: 'Source' %% port\"\n" ++
      "007: \"\"\n" ++
      "7-07: \"title %%\x7bé\"\n" ++
      "+4294967295: \"+8 packet-beta\"\n") = .ok (.packet { blocks := extremes }) :=
  @parse_blocks extremes extremeLines writtenAs_extremes "\n" (by decide)

end Packet

end DiagramText
