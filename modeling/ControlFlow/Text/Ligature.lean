import ControlFlow.Text.CharWidth

/-! Letters that form one sign with the letters behind them, and so take up fewer places than each
of them would alone. A ligature is described by what it begins with, since a text is measured from
its end: the letters of the sign that have been passed, and which letter may stand before them. -/
namespace ControlFlow.Text

/-- The marks that are ignored where a ligature is formed. -/
def ignoredMarkClass : CharClass where
  ranges := [(0x34F, 0x34F), (0x17B4, 0x17B5), (0x180B, 0x180D), (0x180F, 0x180F), (0xFE00, 0xFE0F),
    (0xE0100, 0xE01EF)]

/-- The forms of the Arabic letter alef. -/
def alefClass : CharClass where
  ranges := [(0x622, 0x623), (0x625, 0x625), (0x627, 0x627), (0x671, 0x673), (0x675, 0x675),
    (0x773, 0x774), (0x870, 0x882)]

/-- The forms of the Arabic letter lam. -/
def lamClass : CharClass where
  ranges := [(0x644, 0x644), (0x6B5, 0x6B8), (0x76A, 0x76A), (0x8A6, 0x8A6), (0x8C7, 0x8C7)]

/-- The Khmer letters that can stand below another one. -/
def subjoinableClass : CharClass where
  ranges := [(0x1780, 0x1782), (0x1784, 0x1787), (0x1789, 0x178C), (0x178E, 0x1793),
    (0x1795, 0x1798), (0x179B, 0x179D), (0x17A0, 0x17A0), (0x17A2, 0x17A2), (0x17A7, 0x17A7),
    (0x17AB, 0x17AC), (0x17AF, 0x17AF)]

/-- The consonants of Tifinagh. -/
def tifinaghConsonantClass : CharClass where
  ranges := [(0x2D31, 0x2D65), (0x2D6F, 0x2D6F)]

/-- The beginning of a text that can form one sign with a letter before it. Where a joiner has to
stand between the two, `joined` says whether it has been passed. -/
inductive Ligature where
  /-- An Arabic alef, which a lam can stand before. -/
  | alef
  /-- A Hebrew lamed, which an alef can be joined to. -/
  | lamed (joined : Bool)
  /-- A Khmer letter, which the sign that puts it below another can stand before. -/
  | subjoined
  /-- A Buginese ya, which a vowel sign i can be joined to. -/
  | ya (joined : Bool)
  /-- A Buginese vowel sign i and what is joined to it; the letter a can stand before. -/
  | vowelYa
  /-- A Tifinagh consonant, which another one can be joined to. -/
  | consonant (joined : Bool)
  /-- A Tifinagh consonant behind the sign that joins it to another one. -/
  | markedConsonant
  /-- A Lisu tone letter of the second kind, which one of the first kind can stand before. -/
  | tone
  /-- An Old Turkic i, which an ec can be joined to. -/
  | orkhonI (joined : Bool)
  /-- A Kirat Rai vowel sign e. -/
  | vowelE
  /-- A Kirat Rai vowel sign ai, which is two vowel signs e. -/
  | vowelAi
deriving DecidableEq, Repr

namespace Ligature

/-- The beginning that a character makes by itself. -/
def ofChar? (c : Char) : Option Ligature :=
  if alefClass.contains c then some .alef
  else if subjoinableClass.contains c then some .subjoined
  else if tifinaghConsonantClass.contains c then some (.consonant false)
  else match c.toNat with
    | 0x5DC => some (.lamed false)
    | 0x1A10 => some (.ya false)
    | 0xA4FC | 0xA4FD => some .tone
    | 0x10C03 => some (.orkhonI false)
    | 0x16D67 => some .vowelE
    | 0x16D68 => some .vowelAi
    | _ => none

/-- Whether ignored marks may stand inside the sign. The vowel signs of Kirat Rai combine only where
nothing stands between them. -/
def admitsMarks : Ligature → Bool
  | vowelE | vowelAi => false
  | _ => true

/-- Whether joiners may stand inside the sign. -/
def admitsJoiner : Ligature → Bool
  | alef | vowelE | vowelAi => false
  | _ => true

/-- The beginning behind a joiner. -/
def join : Ligature → Ligature
  | lamed _ => lamed true
  | ya _ => ya true
  | consonant _ => consonant true
  | orkhonI _ => orkhonI true
  | ligature => ligature

/-- The number of places that a letter adds to the sign that it forms with what is behind it, and
what the text begins with then, if the sign can grow further. Without a number the letter stands
apart. -/
def formed? : Ligature → Char → Option (Int × Option Ligature)
  | alef, c => if lamClass.contains c then some (0, none) else none
  | lamed joined, c => if joined && c.toNat == 0x5D0 then some (0, none) else none
  | subjoined, c => if c.toNat == 0x17D2 then some (-1, none) else none
  | ya joined, c => if joined && c.toNat == 0x1A17 then some (0, some vowelYa) else none
  | vowelYa, c => if c.toNat == 0x1A15 then some (0, none) else none
  | consonant joined, c =>
    if c == consonantJoiner then some (1, some markedConsonant)
    else if joined && tifinaghConsonantClass.contains c then some (0, none)
    else none
  | markedConsonant, c => if tifinaghConsonantClass.contains c then some (-1, none) else none
  | tone, c => if 0xA4F8 ≤ c.toNat && c.toNat ≤ 0xA4FB then some (0, none) else none
  | orkhonI joined, c => if joined && c.toNat == 0x10C32 then some (0, none) else none
  | vowelE, c =>
    match c.toNat with
    | 0x16D63 | 0x16D69 => some (0, none)
    | 0x16D67 => some (0, some vowelAi)
    | 0x16D68 => some (1, some vowelE)
    | _ => none
  | vowelAi, c => if c.toNat == 0x16D63 then some (0, none) else none

/-- The number of places that a character adds to a sign, and what the text begins with then. A
character that is ignored inside the sign adds none and leaves the beginning as it is. -/
def before? (ligature : Ligature) (c : Char) : Option (Int × Option Ligature) :=
  if ligature.admitsJoiner && c == joiner then some (0, some ligature.join)
  else if ligature.admitsJoiner && ignoredMarkClass.contains c then some (0, some ligature)
  else if ligature == alef && isTransparent c then some (0, some alef)
  else ligature.formed? c

end Ligature

end ControlFlow.Text
