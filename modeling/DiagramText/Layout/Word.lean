import DiagramText.Text.Basic
import DiagramText.Unicode.Width

namespace DiagramText

inductive Style
  | normal
  | strong
  | emphasis
  deriving DecidableEq, Repr

namespace Style

def name : Style → String
  | normal => "normal"
  | strong => "strong"
  | emphasis => "em"

def ofName? (s : String) : Option Style :=
  [normal, strong, emphasis].find? fun style ↦ style.name = s

end Style

structure Word where
  content : String
  style : Style
  deriving DecidableEq, Repr

abbrev Line := List Word

namespace Word

def joiner : Word :=
  ⟨" ", .normal⟩

def isJoiner (w : Word) : Bool :=
  w.content = " "

theorem isJoiner_iff {w : Word} : w.isJoiner = true ↔ w.content = " " :=
  decide_eq_true_iff

def length (w : Word) : Nat :=
  w.content.length

end Word

namespace Line

def text (line : Line) : String :=
  String.join (line.map Word.content)

@[simp] theorem text_nil : text [] = "" := rfl

@[simp] theorem text_cons (w : Word) (ws : List Word) : text (w :: ws) = w.content ++ text ws :=
  String.join_cons

@[simp] theorem text_append (l m : Line) : text (l ++ m) = text l ++ text m := by
  simp [text, String.join_append]

/-- The columns of all words, each measured on its own. -/
def width : Line → Nat
  | [] => 0
  | w :: ws => Unicode.width w.content.toList + width ws

def fitsIn (columns : Nat) (line : Line) : Bool :=
  line.width ≤ columns

end Line

end DiagramText
