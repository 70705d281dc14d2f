/-! Loops are told apart by the place of their exit test: before the body, after it, or nowhere.
A mark is the kind of loop that a block heads, if it heads one. -/
namespace ControlFlow

/-- Where a loop tests whether to go on. -/
inductive LoopKind where
  | pre
  | post
  | endless
deriving DecidableEq, Repr

namespace LoopKind

def name : LoopKind → String
  | pre => "pre"
  | post => "post"
  | endless => "endless"

/-- The text of a mark. -/
def markText : Option LoopKind → String
  | none => "none"
  | some kind => kind.name

/-- Reads the text of a mark. -/
def ofMarkText? : String → Option (Option LoopKind)
  | "none" => some none
  | "pre" => some (some pre)
  | "post" => some (some post)
  | "endless" => some (some endless)
  | _ => none

end LoopKind

end ControlFlow
