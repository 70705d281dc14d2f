import ControlFlow.Text.Emoji
import ControlFlow.Text.Ligature

/-! The number of places that a text takes up on a line whose places are all of one width. Most
characters take up places of their own, whatever stands around them. Some form one sign with what
follows them, and a selector behind a character can ask for another form of it, so a text is measured
from its end and each character in view of what is behind it. -/
namespace ControlFlow.Text

/-- The form of a character that a selector behind it asks for. -/
inductive Form where
  | text
  | emoji
  /-- A quotation mark as wide as an ideograph. -/
  | fullWidth
deriving DecidableEq, Repr

namespace Form

/-- The form that a selector asks for. -/
def ofSelector? (c : Char) : Option Form :=
  match c.toNat with
  | 0xFE01 => some .fullWidth
  | 0xFE0E => some .text
  | 0xFE0F => some .emoji
  | _ => none

/-- The quotation marks that have a form of full width. -/
def isQuotationMark (c : Char) : Bool :=
  c == '\u2018' || c == '\u2019' || c == '\u201C' || c == '\u201D'

/-- The width of a character in a form, if it has that form. -/
def width? : Form → Char → Option Nat
  | text, c => if isNarrowAsText c then some 1 else none
  | emoji, c => if styledClass.contains c then some 2 else none
  | fullWidth, c => if isQuotationMark c then some 2 else none

end Form

/-- What a text begins with, as far as a character before it could form one sign with it. -/
inductive Beginning where
  | plain
  | ligature (sign : Ligature)
  | pictograph (sign : Pictograph)
deriving DecidableEq, Repr

namespace Beginning

/-- The beginning that a character makes by itself. -/
def ofChar (c : Char) : Beginning :=
  match Ligature.ofChar? c, Pictograph.ofChar? c with
  | some l, _ => ligature l
  | none, some p => pictograph p
  | none, none => plain

/-- What is left of a beginning behind a selector. The selector for emoji stands between the parts
of a joined emoji, and all of them stand inside most ligatures. -/
def behindSelector (form : Form) : Beginning → Beginning
  | ligature l => if l.admitsMarks then ligature l else plain
  | pictograph p => if form == .emoji && p.isOpen then pictograph p else plain
  | plain => plain

/-- What is left of a beginning if the selector in front of it does not suit the character before
it. -/
def withoutSelector : Beginning → Beginning
  | ligature l => ligature l
  | _ => plain

/-- Whether an emoji before it is part of the same sign. -/
def isOpen : Beginning → Bool
  | pictograph p => p.isOpen
  | _ => false

/-- The number of places that a character adds before a beginning, and the beginning with it. -/
def before (beginning : Beginning) (c : Char) : Int × Beginning :=
  let apart : Int × Beginning := (charWidth c, ofChar c)
  match beginning with
  | plain => apart
  | ligature l => ((l.before? c).map fun (n, l) => (n, (l.map ligature).getD plain)).getD apart
  | pictograph p => ((p.before? c).map fun (n, p) => (n, pictograph p)).getD apart

end Beginning

/-- What is behind a character: the form that is asked for, and the beginning behind the selector
that asks for it. -/
structure Following where
  form : Option Form
  beginning : Beginning
deriving DecidableEq, Repr

/-- The number of places that a character adds, and what is then behind the character before it. -/
def Following.before (following : Following) (c : Char) : Int × Following :=
  match following.form.bind fun form => (form.width? c).map fun n => (form, n) with
  | some (.emoji, n) =>
    (if following.beginning.isOpen then 0 else n, ⟨none, .pictograph .whole⟩)
  | some (_, n) => (n, ⟨none, .plain⟩)
  | none =>
    let beginning :=
      if following.form.isSome then following.beginning.withoutSelector else following.beginning
    match Form.ofSelector? c with
    | some form => (0, ⟨some form, beginning.behindSelector form⟩)
    | none =>
      let (n, beginning) := if c.toNat ≤ 0xA0 then (1, .plain) else beginning.before c
      (n, ⟨none, beginning⟩)

/-- The number of places of a text that ends a line, and what it begins with. -/
def measure : List Char → Int × Following
  | [] => (0, ⟨none, .plain⟩)
  | c :: cs =>
    let (places, following) := measure cs
    let (n, following) := following.before c
    (places + n, following)

/-- The number of places that a text takes up. -/
def width (s : String) : Nat := (measure s.toList).1.toNat

end ControlFlow.Text
