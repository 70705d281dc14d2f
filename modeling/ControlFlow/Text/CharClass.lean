/-! A class of characters is a list of ranges of code points. The classes the library needs are
the tables beside this module: blank, alphanumeric, unprinted and combining characters. -/
namespace ControlFlow.Text

/-- A set of characters, written as inclusive ranges of code points. -/
structure CharClass where
  ranges : List (Nat × Nat)

/-- Whether a character lies in one of the ranges. -/
def CharClass.contains (cls : CharClass) (c : Char) : Bool :=
  cls.ranges.any fun (low, high) => low ≤ c.toNat && c.toNat ≤ high

end ControlFlow.Text
