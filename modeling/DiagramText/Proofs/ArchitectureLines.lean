import DiagramText.Proofs.ArchitectureTokens

namespace DiagramText

open Text (isBlank)
open Pattern (isWordChar)

namespace Architecture

open Pattern (Bounded)

def enclose (opening : String) (s : Option String) (closing : String) : String :=
  s.elim "" fun s ↦ opening ++ s ++ closing

def flag (b : Bool) (s : String) : String :=
  if b then s else ""

def Group.line (g : Group) : String :=
  "group " ++ g.id ++ enclose "(" g.icon ")" ++ enclose "[" g.title "]" ++
    enclose " in " g.parent ""

def Service.line (s : Service) : String :=
  "service " ++ s.id ++ enclose "(\"" s.iconText "\")" ++ enclose "(" s.icon ")" ++
    enclose "[" s.title "]" ++ enclose " in " s.parent ""

def Junction.line (j : Junction) : String :=
  "junction " ++ j.id ++ enclose " in " j.parent ""

def EdgeEnd.leftText (e : EdgeEnd) : String :=
  e.id ++ flag e.isGroup "\x7bgroup\x7d" ++ ":" ++ e.side.letter

def EdgeEnd.rightText (e : EdgeEnd) : String :=
  e.side.letter ++ ":" ++ e.id ++ flag e.isGroup "\x7bgroup\x7d"

def Edge.lineText (title : Option String) : String :=
  title.elim "--" fun t ↦ "-[" ++ t ++ "]-"

def Edge.middle (e : Edge) : String :=
  flag e.left.isArrow "<" ++ Edge.lineText e.title ++ flag e.right.isArrow ">"

def Edge.line (e : Edge) : String :=
  e.left.leftText ++ " " ++ e.middle ++ " " ++ e.right.rightText

structure Group.Writable (g : Group) : Prop where
  id : IsId g.id
  icon : ∀ s ∈ g.icon, IsIcon s
  title : ∀ s ∈ g.title, IsLabel ']' s
  parent : ∀ s ∈ g.parent, IsId s

structure Service.Writable (s : Service) : Prop where
  id : IsId s.id
  icon : ∀ t ∈ s.icon, IsIcon t
  iconText : ∀ t ∈ s.iconText, IsLabel '"' t
  title : ∀ t ∈ s.title, IsLabel ']' t
  parent : ∀ t ∈ s.parent, IsId t
  one_icon : s.icon = none ∨ s.iconText = none

structure Junction.Writable (j : Junction) : Prop where
  id : IsId j.id
  parent : ∀ s ∈ j.parent, IsId s

structure Edge.Writable (e : Edge) : Prop where
  left : IsId e.left.id
  right : IsId e.right.id
  title : ∀ s ∈ e.title, IsLabel ']' s

def idToken (s : String) : Token :=
  .unplaced .identifier s.toList

def wordToken (w : Keyword) : Token :=
  .unplaced (.keyword w) w.text.toList

def symbolToken (y : Symbol) : Token :=
  .unplaced (.symbol y) y.text.toList

def enclosedToken (kind : Token.Kind) (opening closing s : String) : Token :=
  .unplaced kind (opening ++ s ++ closing).toList

def iconToken : String → Token :=
  enclosedToken .archIcon "(" ")"

def iconTextToken : String → Token :=
  enclosedToken .archTextIcon "(\"" "\")"

def titleToken : String → Token :=
  enclosedToken .archTitle "[" "]"

def parentRun (parent : Option String) : List Token :=
  parent.elim [] fun s ↦ [wordToken .in, idToken s]

def flagRun (b : Bool) (y : Symbol) : List Token :=
  if b then [symbolToken y] else []

def Group.run (g : Group) : List Token :=
  wordToken .group :: idToken g.id :: ((g.icon.map iconToken).toList ++
    ((g.title.map titleToken).toList ++ parentRun g.parent))

def Service.run (s : Service) : List Token :=
  wordToken .service :: idToken s.id :: ((s.iconText.map iconTextToken).toList ++
    ((s.icon.map iconToken).toList ++ ((s.title.map titleToken).toList ++ parentRun s.parent)))

def Junction.run (j : Junction) : List Token :=
  wordToken .junction :: idToken j.id :: parentRun j.parent

def EdgeEnd.leftRun (e : EdgeEnd) : List Token :=
  idToken e.id :: (flagRun e.isGroup .groupModifier ++
    [symbolToken .colon, idToken e.side.letter])

def EdgeEnd.rightRun (e : EdgeEnd) : List Token :=
  [idToken e.side.letter, symbolToken .colon, idToken e.id] ++ flagRun e.isGroup .groupModifier

def Edge.lineRun (title : Option String) : List Token :=
  title.elim [symbolToken .doubleMinus] fun t ↦
    [symbolToken .minus, titleToken t, symbolToken .minus]

def Edge.run (e : Edge) : List Token :=
  e.left.leftRun ++ (flagRun e.left.isArrow .leftAngle ++ (Edge.lineRun e.title ++
    (flagRun e.right.isArrow .rightAngle ++ e.right.rightRun)))

section Writes

variable {s : String} {rest : List Char}

theorem bounded_of_lineOver (h : Kind.LineOver rest) : Bounded rest := by
  rcases h with rfl | ⟨cs, rfl⟩
  · nofun
  · rintro c ⟨⟩
    decide

theorem bounded_cons {c : Char} (hc : isWordChar c = false) (cs : List Char) :
    Bounded (c :: cs) := by
  rintro d ⟨⟩
  exact hc

theorem bounded_enclose {opening : String} {c : Char} {cs : List Char}
    (ho : opening.toList = c :: cs) (hc : isWordChar c = false) (o : Option String)
    (closing : String) (hr : Bounded rest) :
    Bounded ((enclose opening o closing).toList ++ rest) := by
  cases o with
  | none => simpa [enclose] using hr
  | some s => simpa [enclose, ho] using bounded_cons hc _

theorem bounded_flag {y : String} {c : Char} {cs : List Char} (hy : y.toList = c :: cs)
    (hc : isWordChar c = false) (b : Bool) (hr : Bounded rest) :
    Bounded ((flag b y).toList ++ rest) := by
  cases b with
  | false => simpa [flag] using hr
  | true => simpa [flag, hy] using bounded_cons hc _

theorem solid_of_isId (h : IsId s) (rest : List Char) : Kind.Solid (s.toList ++ rest) := by
  obtain ⟨hhead, hid, -⟩ := h
  cases hs : s.toList with
  | nil => simp [hs] at hhead
  | cons c cs =>
    have hc : isWordChar c = true := hid c (hs ▸ List.mem_cons_self)
    exact ⟨c, _, rfl, Pattern.isSpace_of_isWordChar hc, Pattern.ne_of_isWordChar hc (by decide),
      Pattern.ne_of_isWordChar hc (by decide)⟩

theorem writes_id (h : IsId s) : Kind.architecture.Writes Bounded s.toList [idToken s] :=
  Kind.writes_of_next? rfl fun _ hr ↦ Kind.architecture_next?_id h hr

theorem writes_named {w : Keyword} (hw : w ∈ [.group, .service, .junction, .in]) (h : IsId s) :
    Kind.architecture.Writes Bounded (w.text.toList ++ ([' '] ++ s.toList))
      [wordToken w, idToken s] := by
  have hword : Kind.architecture.Writes (fun rest ↦ ∃ cs, rest = ' ' :: cs) w.text.toList
      [wordToken w] := by
    refine Kind.writes_of_next? rfl ?_
    rintro _ ⟨cs, rfl⟩
    exact Kind.architecture_next?_word hw cs
  have hid := Kind.writes_space.append (writes_id h) fun rest _ ↦ solid_of_isId h rest
  exact hword.append hid fun rest _ ↦ ⟨_, rfl⟩

theorem writes_parent {p : Option String} (h : ∀ s ∈ p, IsId s) :
    Kind.architecture.Writes Bounded (enclose " in " p "").toList (parentRun p) := by
  cases p with
  | none => exact Kind.writes_nil _
  | some s =>
    have hin : Kind.architecture.Writes Bounded (Keyword.in.text.toList ++ ([' '] ++ s.toList))
        [wordToken .in, idToken s] := writes_named (by decide) (h s rfl)
    have htext : (enclose " in " (some s) "").toList =
        [' '] ++ (Keyword.in.text.toList ++ ([' '] ++ s.toList)) := by
      simp [enclose, Keyword.text]
    rw [htext]
    exact Kind.writes_space.append hin fun rest _ ↦ ⟨'i', _, rfl, by decide, by decide, by decide⟩

theorem writes_enclosed {kind : Token.Kind} {opening closing : String} {o : Option String}
    (hk : kind.isHidden = false)
    (h : ∀ s ∈ o, ∀ rest, Kind.architecture.next? ((opening ++ s ++ closing).toList ++ rest) =
      some ⟨kind, (opening ++ s ++ closing).toList, rest⟩) :
    Kind.architecture.Writes (fun _ ↦ True) (enclose opening o closing).toList
      (o.map (enclosedToken kind opening closing)).toList := by
  cases o with
  | none => exact Kind.writes_nil _
  | some s => exact Kind.writes_of_next? hk fun rest _ ↦ h s rfl rest

theorem writes_icon {o : Option String} (h : ∀ s ∈ o, IsIcon s) :
    Kind.architecture.Writes (fun _ ↦ True) (enclose "(" o ")").toList (o.map iconToken).toList :=
  writes_enclosed rfl fun s hs rest ↦ by
    simpa using Kind.architecture_next?_icon (h s hs) rest

theorem writes_iconText {o : Option String} (h : ∀ s ∈ o, IsLabel '"' s) :
    Kind.architecture.Writes (fun _ ↦ True) (enclose "(\"" o "\")").toList
      (o.map iconTextToken).toList :=
  writes_enclosed rfl fun s hs rest ↦ by
    simpa using Kind.architecture_next?_textIcon (h s hs) rest

theorem writes_title {o : Option String} (h : ∀ s ∈ o, IsLabel ']' s) :
    Kind.architecture.Writes (fun _ ↦ True) (enclose "[" o "]").toList (o.map titleToken).toList :=
  writes_enclosed rfl fun s hs rest ↦ by
    simpa using Kind.architecture_next?_title (h s hs) rest

theorem Group.writes {g : Group} (h : g.Writable) :
    Kind.architecture.Writes Kind.LineOver g.line.toList g.run := by
  have hline : g.line.toList = (Keyword.group.text.toList ++ ([' '] ++ g.id.toList)) ++
      ((enclose "(" g.icon ")").toList ++ ((enclose "[" g.title "]").toList ++
        (enclose " in " g.parent "").toList)) := by
    simp [line, Keyword.text]
  rw [hline]
  have hname : Kind.architecture.Writes Bounded
      (Keyword.group.text.toList ++ ([' '] ++ g.id.toList)) [wordToken .group, idToken g.id] :=
    writes_named (by decide) h.id
  have hrest := (writes_icon h.icon).append
    ((writes_title h.title).append (writes_parent h.parent) fun _ _ ↦ trivial) fun _ _ ↦ trivial
  refine (hname.append hrest fun rest hr ↦ ?_).mono fun _ ↦ bounded_of_lineOver
  simp only [List.append_assoc]
  exact bounded_enclose rfl (by decide) _ _ (bounded_enclose rfl (by decide) _ _
    (bounded_enclose rfl (by decide) _ _ hr))

theorem Service.writes {s : Service} (h : s.Writable) :
    Kind.architecture.Writes Kind.LineOver s.line.toList s.run := by
  have hline : s.line.toList = (Keyword.service.text.toList ++ ([' '] ++ s.id.toList)) ++
      ((enclose "(\"" s.iconText "\")").toList ++ ((enclose "(" s.icon ")").toList ++
        ((enclose "[" s.title "]").toList ++ (enclose " in " s.parent "").toList))) := by
    simp [line, Keyword.text]
  rw [hline]
  have hname : Kind.architecture.Writes Bounded
      (Keyword.service.text.toList ++ ([' '] ++ s.id.toList)) [wordToken .service, idToken s.id] :=
    writes_named (by decide) h.id
  have hrest := (writes_iconText h.iconText).append ((writes_icon h.icon).append
    ((writes_title h.title).append (writes_parent h.parent) fun _ _ ↦ trivial) fun _ _ ↦ trivial)
    fun _ _ ↦ trivial
  refine (hname.append hrest fun rest hr ↦ ?_).mono fun _ ↦ bounded_of_lineOver
  simp only [List.append_assoc]
  exact bounded_enclose rfl (by decide) _ _ (bounded_enclose rfl (by decide) _ _
    (bounded_enclose rfl (by decide) _ _ (bounded_enclose rfl (by decide) _ _ hr)))

theorem Junction.writes {j : Junction} (h : j.Writable) :
    Kind.architecture.Writes Kind.LineOver j.line.toList j.run := by
  have hline : j.line.toList = (Keyword.junction.text.toList ++ ([' '] ++ j.id.toList)) ++
      (enclose " in " j.parent "").toList := by
    simp [line, Keyword.text]
  rw [hline]
  have hname : Kind.architecture.Writes Bounded
      (Keyword.junction.text.toList ++ ([' '] ++ j.id.toList))
      [wordToken .junction, idToken j.id] := writes_named (by decide) h.id
  refine (hname.append (writes_parent h.parent) fun rest hr ↦ ?_).mono fun _ ↦ bounded_of_lineOver
  exact bounded_enclose rfl (by decide) _ _ hr

theorem writes_symbol {y : Symbol}
    (hy : y ∈ [.groupModifier, .doubleMinus, .colon, .leftAngle, .rightAngle]) :
    Kind.architecture.Writes (fun _ ↦ True) y.text.toList [symbolToken y] :=
  Kind.writes_of_next? rfl fun rest _ ↦ Kind.architecture_next?_symbol hy rest

theorem writes_flag {y : Symbol}
    (hy : y ∈ [.groupModifier, .doubleMinus, .colon, .leftAngle, .rightAngle]) (b : Bool) :
    Kind.architecture.Writes (fun _ ↦ True) (flag b y.text).toList (flagRun b y) := by
  cases b with
  | false => exact Kind.writes_nil _
  | true => exact writes_symbol hy

theorem isId_letter (side : Side) : IsId side.letter := by
  cases side <;> decide

theorem EdgeEnd.writes_left {e : EdgeEnd} (h : IsId e.id) :
    Kind.architecture.Writes Bounded e.leftText.toList e.leftRun := by
  have htext : e.leftText.toList = e.id.toList ++
      ((flag e.isGroup Symbol.groupModifier.text).toList ++
        (Symbol.colon.text.toList ++ e.side.letter.toList)) := by
    simp [leftText, Symbol.text]
  rw [htext]
  have hcolon : Kind.architecture.Writes (fun _ ↦ True) Symbol.colon.text.toList
      [symbolToken .colon] := writes_symbol (by decide)
  have hrest := (writes_flag (y := .groupModifier) (by decide) e.isGroup).append
    (hcolon.append (writes_id (isId_letter e.side)) fun _ _ ↦ trivial) fun _ _ ↦ trivial
  refine (writes_id h).append hrest fun rest hr ↦ ?_
  rw [List.append_assoc]
  exact bounded_flag rfl (by decide) _ (bounded_cons (by decide) _)

theorem EdgeEnd.writes_right {e : EdgeEnd} (h : IsId e.id) :
    Kind.architecture.Writes Bounded e.rightText.toList e.rightRun := by
  have htext : e.rightText.toList = e.side.letter.toList ++ (Symbol.colon.text.toList ++
      (e.id.toList ++ (flag e.isGroup Symbol.groupModifier.text).toList)) := by
    simp [rightText, Symbol.text]
  rw [htext]
  have hcolon : Kind.architecture.Writes (fun _ ↦ True) Symbol.colon.text.toList
      [symbolToken .colon] := writes_symbol (by decide)
  have hid := (writes_id h).append
    ((writes_flag (y := .groupModifier) (by decide) e.isGroup).mono fun rest _ ↦ trivial)
    fun rest (hr : Bounded rest) ↦ bounded_flag rfl (by decide) _ hr
  exact (writes_id (isId_letter e.side)).append (hcolon.append hid fun _ _ ↦ trivial)
    fun rest _ ↦ bounded_cons (by decide) _

theorem Edge.writes_lineText {title : Option String} (h : ∀ s ∈ title, IsLabel ']' s) :
    Kind.architecture.Writes (fun rest ↦ rest.head? ≠ some '-') (lineText title).toList
      (lineRun title) := by
  cases title with
  | none => exact (writes_symbol (y := .doubleMinus) (by decide)).mono fun _ _ ↦ trivial
  | some s =>
    have hminus : Kind.architecture.Writes (fun rest ↦ rest.head? ≠ some '-') ['-']
        [symbolToken .minus] :=
      Kind.writes_of_next? rfl fun _ hr ↦ Kind.architecture_next?_minus hr
    have htext : (lineText (some s)).toList =
        ['-'] ++ ((enclose "[" (some s) "]").toList ++ ['-']) := by
      simp [lineText, enclose]
    rw [htext]
    have hrest := (writes_title h).append hminus fun _ _ ↦ trivial
    exact hminus.append hrest fun rest _ ↦ by simp [enclose]

theorem Edge.writes_middle {e : Edge} (h : e.Writable) :
    Kind.architecture.Writes Kind.Solid ([' '] ++ (e.middle.toList ++ [' ']))
      (flagRun e.left.isArrow .leftAngle ++ (lineRun e.title ++
        flagRun e.right.isArrow .rightAngle)) := by
  have hmiddle : [' '] ++ (e.middle.toList ++ [' ']) =
      [' '] ++ ((flag e.left.isArrow Symbol.leftAngle.text).toList ++ ((lineText e.title).toList ++
        ((flag e.right.isArrow Symbol.rightAngle.text).toList ++ [' ']))) := by
    simp [middle, Symbol.text]
  rw [hmiddle]
  have hline (rest : List Char) : ∃ cs, (lineText e.title).toList ++ rest = '-' :: cs := by
    cases e.title with
    | none => exact ⟨_, rfl⟩
    | some s => exact ⟨_, by simp [lineText]; rfl⟩
  have hright := (writes_flag (y := .rightAngle) (by decide) e.right.isArrow).append
    Kind.writes_space fun _ _ ↦ trivial
  rw [List.append_nil] at hright
  have hrest := (writes_lineText h.title).append hright fun rest _ ↦ by
    cases e.right.isArrow <;> simp [flag, Symbol.text]
  have hleft := (writes_flag (y := .leftAngle) (by decide) e.left.isArrow).append hrest
    fun _ _ ↦ trivial
  refine Kind.writes_space.append hleft fun rest _ ↦ ?_
  obtain ⟨cs, hcs⟩ :=
    hline (((flag e.right.isArrow Symbol.rightAngle.text).toList ++ [' ']) ++ rest)
  rw [List.append_assoc, List.append_assoc, hcs]
  cases e.left.isArrow with
  | false => exact ⟨'-', _, rfl, by decide, by decide, by decide⟩
  | true => exact ⟨'<', _, rfl, by decide, by decide, by decide⟩

theorem Edge.writes {e : Edge} (h : e.Writable) :
    Kind.architecture.Writes Kind.LineOver e.line.toList e.run := by
  have hline : e.line.toList = e.left.leftText.toList ++ (([' '] ++ (e.middle.toList ++ [' '])) ++
      e.right.rightText.toList) := by
    simp [line]
  have hrun : e.run = e.left.leftRun ++ ((flagRun e.left.isArrow .leftAngle ++ (lineRun e.title ++
      flagRun e.right.isArrow .rightAngle)) ++ e.right.rightRun) := by
    simp [run]
  rw [hline, hrun]
  have hright := (Edge.writes_middle h).append (EdgeEnd.writes_right h.right) fun rest _ ↦ by
    have hside : e.right.rightText.toList = e.right.side.letter.toList ++
        (':' :: (e.right.id ++ flag e.right.isGroup "\x7bgroup\x7d").toList) := by
      simp [EdgeEnd.rightText]
    rw [hside, List.append_assoc]
    exact solid_of_isId (isId_letter e.right.side) _
  refine ((EdgeEnd.writes_left h.left).append hright fun rest _ ↦ ?_).mono
    fun _ ↦ bounded_of_lineOver
  exact bounded_cons (by decide) _

end Writes

section Reads

open Grammar.Architecture (reader enclosedText)

variable {s : String} {ts : List Token}

theorem trim_of_isIcon (h : IsIcon s) : Text.trim s.toList = s.toList := by
  have hblank : ∀ c ∈ s.toList, isBlank c = false := by
    intro c hc
    rcases h.2 c hc with hw | rfl | rfl
    · exact Pattern.isBlank_of_isWordChar hw
    · decide
    · decide
  rw [Text.trim, Text.trimStart, Text.dropWhile_eq_self hblank, Text.trimEnd,
    Text.dropWhileEnd_eq_self hblank]

theorem enclosedText_eq (opening closing : String) (h : Text.trim s.toList = s.toList) :
    enclosedText opening.toList closing.toList (opening ++ s ++ closing).toList = .text s := by
  have hinner : Text.between? opening.toList closing.toList (opening ++ s ++ closing).toList =
      some s.toList := by
    rw [String.toList_append, String.toList_append, List.append_assoc, Text.between?_eq]
  rw [enclosedText, hinner, Option.getD_some, h, Value.ofChars, String.ofList_toList]

theorem identifier_idToken (s what : String) (ts : List Token) :
    Grammar.Architecture.identifier what (idToken s :: ts) = .accepted s ts := by
  have hread : reader (idToken s) = .ok (.text s) := by
    simp [reader, idToken, Token.unplaced, Reader.common]
  have htext : Production.text reader .identifier what (idToken s :: ts) =
      .accepted ⟨s, default⟩ ts := Production.text_cons rfl hread what ts
  rw [Grammar.Architecture.identifier, Production.bind_apply, htext]
  rfl

theorem keyword_wordToken (w : Keyword) (ts : List Token) :
    Production.keyword w (wordToken w :: ts) = .accepted (wordToken w) ts :=
  Production.token_cons rfl _ ts

theorem symbol_symbolToken (y : Symbol) (ts : List Token) :
    Production.symbol y (symbolToken y :: ts) = .accepted (symbolToken y) ts :=
  Production.token_cons rfl _ ts

theorem textOf?_eq {kind : Token.Kind} {token : String → Token} {o : Option String}
    (hk : ∀ s, (token s).kind = kind) (hread : ∀ s ∈ o, reader (token s) = .ok (.text s))
    (hts : ts.head?.map Token.kind ≠ some kind) :
    Grammar.Architecture.textOf? kind ((o.map token).toList ++ ts) = .accepted o ts := by
  cases o with
  | none =>
    simp only [Grammar.Architecture.textOf?, Option.map_none, Option.toList_none, List.nil_append,
      Production.bind_apply, Production.nextKind_eq, if_neg hts, Production.pure_apply]
  | some s =>
    simp only [Grammar.Architecture.textOf?, Option.map_some, Option.toList_some,
      List.singleton_append, List.head?_cons, hk, Production.bind_apply, Production.nextKind_eq,
      if_true, Production.text_cons (hk s) (hread s rfl), Production.pure_apply]

theorem textOf?_icon {o : Option String} (h : ∀ s ∈ o, IsIcon s)
    (hts : ts.head?.map Token.kind ≠ some .archIcon) :
    Grammar.Architecture.textOf? .archIcon ((o.map iconToken).toList ++ ts) = .accepted o ts :=
  textOf?_eq (fun _ ↦ rfl) (fun s hs ↦ by
    have htext := enclosedText_eq "(" ")" (trim_of_isIcon (h s hs))
    simpa [reader, iconToken, enclosedToken, Token.unplaced] using htext) hts

theorem textOf?_iconText {o : Option String} (h : ∀ s ∈ o, IsLabel '"' s)
    (hts : ts.head?.map Token.kind ≠ some .archTextIcon) :
    Grammar.Architecture.textOf? .archTextIcon ((o.map iconTextToken).toList ++ ts) =
      .accepted o ts :=
  textOf?_eq (fun _ ↦ rfl) (fun s hs ↦ by
    have htext := enclosedText_eq "(\"" "\")" (h s hs).2.1
    simpa [reader, iconTextToken, enclosedToken, Token.unplaced] using htext) hts

theorem reader_titleToken (h : IsLabel ']' s) : reader (titleToken s) = .ok (.text s) := by
  have htext := enclosedText_eq "[" "]" h.2.1
  simpa [reader, titleToken, enclosedToken, Token.unplaced] using htext

theorem textOf?_title {o : Option String} (h : ∀ s ∈ o, IsLabel ']' s)
    (hts : ts.head?.map Token.kind ≠ some .archTitle) :
    Grammar.Architecture.textOf? .archTitle ((o.map titleToken).toList ++ ts) = .accepted o ts :=
  textOf?_eq (fun _ ↦ rfl) (fun s hs ↦ reader_titleToken (h s hs)) hts

theorem parent_parentRun (p : Option String) :
    Grammar.Architecture.parent (parentRun p) = .accepted p [] := by
  cases p with
  | none => rfl
  | some s =>
    have hmembership : Grammar.Architecture.membership [wordToken .in, idToken s] =
        .accepted s [] := by
      simp only [Grammar.Architecture.membership, Production.bind_apply, keyword_wordToken,
        identifier_idToken]
    simp only [Grammar.Architecture.parent, parentRun, Option.elim_some, Production.optional,
      hmembership]

theorem hasSymbol_flagRun (b : Bool) {y : Symbol}
    (hts : ts.head?.map Token.kind ≠ some (.symbol y)) :
    Grammar.Architecture.hasSymbol y (flagRun b y ++ ts) = .accepted b ts := by
  cases b with
  | true =>
    simp only [Grammar.Architecture.hasSymbol, flagRun, if_true, List.singleton_append,
      Production.bind_apply, Production.optional, symbol_symbolToken, Production.pure_apply]
    rfl
  | false =>
    have hnone : Production.symbol y ts = .refused (.expected y.text) ts := by
      cases ts with
      | nil => rfl
      | cons t ts =>
        have ht : t.kind ≠ .symbol y := by simpa using hts
        simp [Production.symbol, Production.token, Production.satisfying, ht]
    simp [Grammar.Architecture.hasSymbol, flagRun, Production.bind_apply, Production.optional,
      hnone]

theorem side_letter (side : Side) (ts : List Token) :
    Grammar.Architecture.side (idToken side.letter :: ts) = .accepted side ts := by
  cases side <;> rfl

theorem edgeLine_lineRun {title : Option String} (h : ∀ s ∈ title, IsLabel ']' s)
    (ts : List Token) :
    Grammar.Architecture.edgeLine (Edge.lineRun title ++ ts) = .accepted title ts := by
  cases title with
  | none => rfl
  | some s =>
    have hkind : (Edge.lineRun (some s) ++ ts).head?.map Token.kind = some (.symbol .minus) := rfl
    have htitle : Production.text reader .archTitle "edge title"
        (titleToken s :: symbolToken .minus :: ts) =
          .accepted ⟨s, default⟩ (symbolToken .minus :: ts) :=
      Production.text_cons rfl (reader_titleToken (h s rfl)) _ _
    simp only [Grammar.Architecture.edgeLine, Production.bind_apply, Production.nextKind_eq, hkind]
    simp [Edge.lineRun, Production.bind_apply, symbol_symbolToken, htitle]

theorem kind_head?_optional {kind kind' : Token.Kind} {token : String → Token} (o : Option String)
    (hk : ∀ s, (token s).kind = kind') (hne : kind' ≠ kind)
    (hts : ts.head?.map Token.kind ≠ some kind) :
    ((o.map token).toList ++ ts).head?.map Token.kind ≠ some kind := by
  cases o with
  | none => exact hts
  | some s => exact fun h ↦ hne ((hk s).symm.trans (Option.some.inj h))

theorem kind_head?_parentRun {kind : Token.Kind} (p : Option String) (hk : .keyword .in ≠ kind) :
    (parentRun p).head?.map Token.kind ≠ some kind := by
  cases p with
  | none => nofun
  | some s => exact fun h ↦ hk (Option.some.inj h)

theorem Group.group_run {g : Group} (h : g.Writable) :
    Grammar.Architecture.group g.run = .accepted g [] := by
  have hnext : ((g.title.map titleToken).toList ++ parentRun g.parent).head?.map Token.kind ≠
      some .archIcon :=
    kind_head?_optional _ (fun _ ↦ rfl) (by decide) (kind_head?_parentRun _ (by decide))
  have hicon := textOf?_icon h.icon hnext
  have htitle := textOf?_title h.title (kind_head?_parentRun g.parent (by decide))
  simp only [Grammar.Architecture.group, run, Production.bind_apply, keyword_wordToken,
    identifier_idToken, hicon, htitle, parent_parentRun]
  rfl

theorem Service.serviceIcon_run {s : Service} (h : s.Writable)
    (hicon : ts.head?.map Token.kind ≠ some .archIcon)
    (htext : ts.head?.map Token.kind ≠ some .archTextIcon) :
    Grammar.Architecture.serviceIcon ((s.iconText.map iconTextToken).toList ++
      ((s.icon.map iconToken).toList ++ ts)) = .accepted (s.icon, s.iconText) ts := by
  have hnext : ((s.icon.map iconToken).toList ++ ts).head?.map Token.kind ≠ some .archTextIcon :=
    kind_head?_optional s.icon (fun _ ↦ rfl) (by decide) htext
  rw [Grammar.Architecture.serviceIcon, Production.bind_apply, textOf?_iconText h.iconText hnext]
  cases htext : s.iconText with
  | none =>
    simp only [Production.bind_apply, textOf?_icon h.icon hicon, Production.pure_apply]
  | some t =>
    have hnone : s.icon = none := h.one_icon.resolve_right (by simp [htext])
    rw [hnone]
    rfl

theorem Service.service_run {s : Service} (h : s.Writable) :
    Grammar.Architecture.service s.run = .accepted s [] := by
  have hnext {kind : Token.Kind} (hk : kind ∈ [.archIcon, .archTextIcon]) :
      ((s.title.map titleToken).toList ++ parentRun s.parent).head?.map Token.kind ≠ some kind := by
    simp only [List.mem_cons, List.not_mem_nil, or_false] at hk
    rcases hk with rfl | rfl
    · exact kind_head?_optional _ (fun _ ↦ rfl) (by decide) (kind_head?_parentRun _ (by decide))
    · exact kind_head?_optional _ (fun _ ↦ rfl) (by decide) (kind_head?_parentRun _ (by decide))
  have hicon := serviceIcon_run h (hnext (by decide)) (hnext (by decide))
  have htitle := textOf?_title h.title (kind_head?_parentRun s.parent (by decide))
  simp only [Grammar.Architecture.service, run, Production.bind_apply, keyword_wordToken,
    identifier_idToken, hicon, htitle, parent_parentRun]
  rfl

theorem Junction.junction_run (j : Junction) :
    Grammar.Architecture.junction j.run = .accepted j [] := by
  simp only [Grammar.Architecture.junction, run, Production.bind_apply, keyword_wordToken,
    identifier_idToken, parent_parentRun]
  rfl

theorem Edge.edge_run {e : Edge} (h : e.Writable) :
    Grammar.Architecture.edge e.run = .accepted e [] := by
  have hrun : e.run = idToken e.left.id :: (flagRun e.left.isGroup .groupModifier ++
      symbolToken .colon :: idToken e.left.side.letter :: (flagRun e.left.isArrow .leftAngle ++
        (Edge.lineRun e.title ++ (flagRun e.right.isArrow .rightAngle ++
          idToken e.right.side.letter :: symbolToken .colon :: idToken e.right.id ::
            flagRun e.right.isGroup .groupModifier)))) := by
    simp [run, EdgeEnd.leftRun, EdgeEnd.rightRun]
  have hgroup (b : Bool) (ts : List Token) :
      Grammar.Architecture.hasSymbol .groupModifier (flagRun b .groupModifier ++
        symbolToken .colon :: ts) = .accepted b (symbolToken .colon :: ts) :=
    hasSymbol_flagRun b (by nofun)
  have hleft (b : Bool) (ts : List Token) :
      Grammar.Architecture.hasSymbol .leftAngle (flagRun b .leftAngle ++
        (Edge.lineRun e.title ++ ts)) = .accepted b (Edge.lineRun e.title ++ ts) :=
    hasSymbol_flagRun b (by cases e.title <;> nofun)
  have hright (b : Bool) (s : String) (ts : List Token) :
      Grammar.Architecture.hasSymbol .rightAngle (flagRun b .rightAngle ++ idToken s :: ts) =
        .accepted b (idToken s :: ts) :=
    hasSymbol_flagRun b (by nofun)
  have hend (b : Bool) :
      Grammar.Architecture.hasSymbol .groupModifier (flagRun b .groupModifier) =
        .accepted b [] := by
    have hts : ([] : List Token).head?.map Token.kind ≠ some (.symbol .groupModifier) := nofun
    simpa using hasSymbol_flagRun b hts
  rw [hrun]
  simp only [Grammar.Architecture.edge, Production.bind_apply, identifier_idToken, hgroup,
    symbol_symbolToken, side_letter, hleft, edgeLine_lineRun h.title, hright, hend]
  rfl

end Reads

section OneLine

theorem oneLine_optional {token : String → Token} (hk : ∀ s, (token s).isNewline = false)
    (o : Option String) : OneLine (o.map token).toList := by
  cases o with
  | none => nofun
  | some s => exact List.forall_mem_singleton.2 (hk s)

theorem oneLine_parentRun (p : Option String) : OneLine (parentRun p) := by
  cases p with
  | none => nofun
  | some s => exact List.forall_mem_cons.2 ⟨rfl, List.forall_mem_singleton.2 rfl⟩

theorem oneLine_flagRun (b : Bool) (y : Symbol) : OneLine (flagRun b y) := by
  cases b with
  | false => nofun
  | true => exact List.forall_mem_singleton.2 rfl

theorem Group.oneLine_run (g : Group) : OneLine g.run := by
  simp only [OneLine, run, List.forall_mem_cons, List.forall_mem_append]
  exact ⟨rfl, rfl, oneLine_optional (fun _ ↦ rfl) _, oneLine_optional (fun _ ↦ rfl) _,
    oneLine_parentRun _⟩

theorem Service.oneLine_run (s : Service) : OneLine s.run := by
  simp only [OneLine, run, List.forall_mem_cons, List.forall_mem_append]
  exact ⟨rfl, rfl, oneLine_optional (fun _ ↦ rfl) _, oneLine_optional (fun _ ↦ rfl) _,
    oneLine_optional (fun _ ↦ rfl) _, oneLine_parentRun _⟩

theorem Junction.oneLine_run (j : Junction) : OneLine j.run :=
  List.forall_mem_cons.2 ⟨rfl, List.forall_mem_cons.2 ⟨rfl, oneLine_parentRun _⟩⟩

theorem Edge.oneLine_run (e : Edge) : OneLine e.run := by
  have hline : OneLine (lineRun e.title) := by
    cases e.title with
    | none => exact List.forall_mem_singleton.2 rfl
    | some s =>
      simp only [OneLine, lineRun, Option.elim_some, List.forall_mem_cons]
      exact ⟨rfl, rfl, rfl, by simp⟩
  simp only [OneLine, run, EdgeEnd.leftRun, EdgeEnd.rightRun, List.forall_mem_cons,
    List.forall_mem_append]
  exact ⟨⟨rfl, oneLine_flagRun _ _, rfl, rfl, by simp⟩, oneLine_flagRun _ _, hline,
    oneLine_flagRun _ _, ⟨rfl, rfl, rfl, by simp⟩, oneLine_flagRun _ _⟩

end OneLine

end Architecture

namespace Grammar.Architecture.Entry

open DiagramText.Architecture

def line : Entry → String
  | group g => g.line
  | service s => s.line
  | junction j => j.line
  | edge e => e.line

def Writable : Entry → Prop
  | group g => g.Writable
  | service s => s.Writable
  | junction j => j.Writable
  | edge e => e.Writable

theorem readsLine {e : Entry} (h : e.Writable) :
    Kind.architecture.ReadsLine e.line.toList (.entry e) := by
  cases e with
  | group g =>
    have hkind : g.run.head?.map Token.kind = some (.keyword .group) := rfl
    have hentry : entry g.run = .accepted (.group g) [] := by
      simp only [entry, Production.bind_apply, Production.nextKind_eq, hkind, Group.group_run h,
        Production.pure_apply]
    exact ⟨g.run, nofun, g.oneLine_run, Group.writes h, Statement.production_of_entry rfl hentry⟩
  | service s =>
    have hkind : s.run.head?.map Token.kind = some (.keyword .service) := rfl
    have hentry : entry s.run = .accepted (.service s) [] := by
      simp only [entry, Production.bind_apply, Production.nextKind_eq, hkind, Service.service_run h,
        Production.pure_apply]
    exact ⟨s.run, nofun, s.oneLine_run, Service.writes h, Statement.production_of_entry rfl hentry⟩
  | junction j =>
    have hkind : j.run.head?.map Token.kind = some (.keyword .junction) := rfl
    have hentry : entry j.run = .accepted (.junction j) [] := by
      simp only [entry, Production.bind_apply, Production.nextKind_eq, hkind, Junction.junction_run,
        Production.pure_apply]
    exact ⟨j.run, nofun, j.oneLine_run, Junction.writes h,
      Statement.production_of_entry rfl hentry⟩
  | edge e =>
    have hkind : e.run.head?.map Token.kind = some .identifier := rfl
    have hentry : entry e.run = .accepted (.edge e) [] := by
      simp only [entry, Production.bind_apply, Production.nextKind_eq, hkind, Edge.edge_run h,
        Production.pure_apply]
    exact ⟨e.run, nofun, e.oneLine_run, Edge.writes h, Statement.production_of_entry rfl hentry⟩

end Grammar.Architecture.Entry

theorem Kind.architecture_opensLine :
    architecture.OpensLine "architecture-beta".toList Keyword.architectureBeta where
  head := ⟨'a', _, rfl, by decide, by decide⟩
  cuts := by
    refine ⟨[.unplaced (.keyword .architectureBeta) "architecture-beta".toList],
      writes_of_next? rfl fun rest hr ↦ ?_, fun tail _ ↦ ⟨tail, rfl, rfl⟩⟩
    rcases hr with rfl | ⟨rest, rfl⟩ <;> rfl

namespace Architecture

open Grammar.Architecture (Entry)

/-- The entries are the elements of the tree, those of each sort in order. -/
structure Lists (entries : List Entry) (d : Architecture) : Prop where
  groups : entries.filterMap Entry.group? = d.groups
  services : entries.filterMap Entry.service? = d.services
  junctions : entries.filterMap Entry.junction? = d.junctions
  edges : entries.filterMap Entry.edge? = d.edges

def entries (d : Architecture) : List Entry :=
  d.groups.map .group ++ d.services.map .service ++ d.junctions.map .junction ++ d.edges.map .edge

theorem lists_entries (d : Architecture) : Lists d.entries d := by
  constructor <;> simp [entries, List.filterMap_append, List.filterMap_map, Function.comp_def,
    Entry.group?, Entry.service?, Entry.junction?, Entry.edge?]

/-- A tree without annotations whose names, icons and titles can be written. -/
structure Writable (d : Architecture) : Prop where
  annotations : d.annotations = {}
  groups : ∀ g ∈ d.groups, g.Writable
  services : ∀ s ∈ d.services, s.Writable
  junctions : ∀ j ∈ d.junctions, j.Writable
  edges : ∀ e ∈ d.edges, e.Writable

theorem Lists.writable {entries : List Entry} {d : Architecture} (h : Lists entries d)
    (hd : d.Writable) : ∀ e ∈ entries, e.Writable := by
  intro e he
  cases e with
  | group g => exact hd.groups g (h.groups ▸ List.mem_filterMap.2 ⟨_, he, rfl⟩)
  | service s => exact hd.services s (h.services ▸ List.mem_filterMap.2 ⟨_, he, rfl⟩)
  | junction j => exact hd.junctions j (h.junctions ▸ List.mem_filterMap.2 ⟨_, he, rfl⟩)
  | edge e => exact hd.edges e (h.edges ▸ List.mem_filterMap.2 ⟨_, he, rfl⟩)

/-- A tree written out, its elements in any order, is read back. -/
theorem parse_lines {d : Architecture} (hd : d.Writable) {entries : List Entry}
    (hl : Lists entries d) {ending : String} (he : ending ∈ ["", "\n"]) :
    Kind.architecture.parse (onLines "architecture-beta" (entries.map Entry.line) ++ ending) =
      .ok (.architecture d) := by
  have hentries : Statement.entries (entries.map fun e ↦ Statement.entry e) = entries :=
    (Statement.entries_map id entries).trans (List.map_id entries)
  have hnotes : Statement.annotations (entries.map fun e ↦ Statement.entry e) = d.annotations :=
    (Statement.annotations_map id entries).trans hd.annotations.symm
  have hassemble : Grammar.Architecture.assemble .architectureBeta
      (entries.map fun e ↦ Statement.entry e) = (.architecture d, []) := by
    rw [Grammar.Architecture.assemble, hentries, hnotes, hl.groups, hl.services, hl.junctions,
      hl.edges]
  exact Kind.parse_of_lines Kind.architecture_opensLine
    (fun e hm ↦ Entry.readsLine (hl.writable hd e hm)) he hassemble rfl

def confusable : Architecture where
  groups := [⟨"groups", some "logos:aws-s3", some "a %% b", none⟩]
  services := [⟨"in_", none, some "(x) [y]", some "titles", some "groups"⟩,
    ⟨"title2", some "db", none, none, none⟩]
  junctions := [⟨"junction1", some "groups"⟩]
  edges := [⟨⟨"in_", true, .left, true⟩, ⟨"title2", false, .right, true⟩, some "--"⟩,
    ⟨⟨"T", false, .top, false⟩, ⟨"accTitles", true, .bottom, false⟩, none⟩]

theorem writable_confusable : confusable.Writable where
  annotations := rfl
  groups := by
    intro g hg
    obtain rfl := List.mem_singleton.1 hg
    exact ⟨by decide, by decide, by decide, nofun⟩
  services := by
    intro s hs
    simp only [confusable, List.mem_cons, List.not_mem_nil, or_false] at hs
    rcases hs with rfl | rfl
    · exact ⟨by decide, by decide, by decide, by decide, by decide, .inl rfl⟩
    · exact ⟨by decide, by decide, by decide, by decide, by decide, .inr rfl⟩
  junctions := by
    intro j hj
    obtain rfl := List.mem_singleton.1 hj
    exact ⟨by decide, by decide⟩
  edges := by
    intro e he
    simp only [confusable, List.mem_cons, List.not_mem_nil, or_false] at he
    rcases he with rfl | rfl
    · exact ⟨by decide, by decide, by decide⟩
    · exact ⟨by decide, by decide, by decide⟩

theorem parse_lines_confusable :
    Kind.architecture.parse ("architecture-beta\n" ++
      "group groups(logos:aws-s3)[a %% b]\n" ++
      "service in_(\"(x) [y]\")[titles] in groups\n" ++
      "service title2(db)\n" ++
      "junction junction1 in groups\n" ++
      "in_\x7bgroup\x7d:L <-[--]-> R:title2\n" ++
      "T:T -- B:accTitles\x7bgroup\x7d\n") = .ok (.architecture confusable) := by
  have hparse := parse_lines writable_confusable (lists_entries confusable)
    (List.mem_cons_of_mem "" (.head _))
  have htext : onLines "architecture-beta" (confusable.entries.map Entry.line) ++ "\n" =
      "architecture-beta\n" ++
        "group groups(logos:aws-s3)[a %% b]\n" ++
        "service in_(\"(x) [y]\")[titles] in groups\n" ++
        "service title2(db)\n" ++
        "junction junction1 in groups\n" ++
        "in_\x7bgroup\x7d:L <-[--]-> R:title2\n" ++
        "T:T -- B:accTitles\x7bgroup\x7d\n" := by
    decide +kernel
  rw [← htext]
  exact hparse

end Architecture

end DiagramText
