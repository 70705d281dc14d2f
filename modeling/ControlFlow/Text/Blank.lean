import ControlFlow.Text.CharClass

/-! Blank characters are those with the Unicode property White_Space. Core's `Char.isWhitespace`
knows four of them; all four are blank here. -/
namespace ControlFlow.Text

/-- The characters with the property White_Space. -/
def blankClass : CharClass where
  ranges := [(0x9, 0xD), (0x20, 0x20), (0x85, 0x85), (0xA0, 0xA0), (0x1680, 0x1680),
    (0x2000, 0x200A), (0x2028, 0x2029), (0x202F, 0x202F), (0x205F, 0x205F), (0x3000, 0x3000)]

/-- Whether a character only separates what stands around it. -/
def isBlank (c : Char) : Bool := blankClass.contains c

end ControlFlow.Text
