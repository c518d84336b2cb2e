import DiagramText.Kind
import DiagramText.Layout.Segmenter
import DiagramText.Toml.Document

namespace DiagramText

inductive Segmentation
  | unicode
  | plain
  deriving DecidableEq, Repr

namespace Segmentation

def name : Segmentation → String
  | unicode => "unicode"
  | plain => "fallback"

def ofName? (s : String) : Option Segmentation :=
  [unicode, plain].find? fun g ↦ g.name = s

def segmenter : Segmentation → Segmenter
  | unicode => .unicode
  | plain => .plain

end Segmentation

structure Settings where
  /-- The columns of the widest label line. -/
  maxWidth : Nat := 40
  segmentation : Segmentation := .unicode
  /-- The kind of every text, instead of the one its keyword tells. -/
  kind : Option Kind := none
  deriving DecidableEq, Repr

namespace Settings

/-- Widths are numbers of 64 bits. -/
def width? : Data → Option Nat
  | .integer n => if 0 ≤ n ∧ n < Nat.pow 2 64 then some n.toNat else none
  | _ => none

def segmentation? (d : Data) : Option Segmentation :=
  d.variant?.bind Segmentation.ofName?

def kind? : Data → Option (Option Kind)
  | .null => some none
  | d => (d.variant?.bind Kind.ofTag?).map some

def fieldOr {α : Type} (default : α) (read? : Data → Option α) : Option Data → Option α
  | none => some default
  | some d => read? d

def withLayout? (s : Settings) (d : Data) : Option Settings :=
  if d.isRecord 2 then do
    let maxWidth ← fieldOr s.maxWidth width? (d.field? 0 "max_width")
    let segmentation ← fieldOr s.segmentation segmentation? (d.field? 1 "segmentation")
    some { s with maxWidth, segmentation }
  else none

def withParsing? (s : Settings) (d : Data) : Option Settings :=
  if d.isRecord 1 then do
    let kind ← fieldOr s.kind kind? (d.field? 0 "kind")
    some { s with kind }
  else none

/-- Settings that are not given keep their defaults, and those of other names are passed over. -/
def ofData? (d : Data) : Option Settings :=
  if d.isRecord 2 then do
    let s ← fieldOr {} (withLayout? {}) (d.field? 0 "layout")
    fieldOr s (withParsing? s) (d.field? 1 "parser")
  else none

def ofText? (text : String) : Option Settings :=
  (Toml.parse? text).bind ofData?

end Settings

end DiagramText
