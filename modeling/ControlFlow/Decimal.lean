/-! Shortest decimals. A binary fraction has a decimal that reads back as the same number; among
those with the fewest digits the nearest one is its text. All arithmetic is on whole numbers. -/
namespace ControlFlow.Decimal

/-- A positive binary fraction `mantissa * 2 ^ exponent`. -/
structure Binary where
  mantissa : Nat
  exponent : Int
  /-- Whether the next smaller number is only half as far away as the next larger one. -/
  atStep : Bool
deriving DecidableEq, Repr

/-- A positive decimal `digits * 10 ^ exponent`. -/
structure Digits where
  digits : Nat
  exponent : Int
deriving DecidableEq, Repr

/-- The power of a base, one for a negative exponent. -/
def natPow (base : Nat) (exponent : Int) : Nat := base.pow exponent.toNat

/-- The multiple of `10 ^ place` nearest to a binary fraction among those that read back as it. Of
two equally near ones the even one is taken, and the ends of the range read back as a number with
an even mantissa. -/
def onGrid? (b : Binary) (place : Int) : Option Digits :=
  let scale := natPow 2 (b.exponent - 2) * natPow 10 (-place)
  let unit := natPow 10 place * natPow 2 (2 - b.exponent)
  let value := 4 * b.mantissa * scale
  let low := (4 * b.mantissa - if b.atStep then 1 else 2) * scale
  let high := (4 * b.mantissa + 2) * scale
  let fits (d : Nat) : Bool :=
    if b.mantissa % 2 == 0 then low ≤ d * unit && d * unit ≤ high
    else low < d * unit && d * unit < high
  let below := value / unit
  let above := below + 1
  match below != 0 && fits below, fits above with
  | true, true =>
    let down := value - below * unit
    let up := above * unit - value
    if down < up || (down == up && below % 2 == 0) then some ⟨below, place⟩
    else some ⟨above, place⟩
  | true, false => some ⟨below, place⟩
  | false, true => some ⟨above, place⟩
  | false, false => none

/-- The first grid from `place` down that holds a number that reads back. -/
def shortestFrom (b : Binary) (place : Int) : Nat → Digits
  | 0 => ⟨0, 0⟩
  | bound + 1 => (onGrid? b place).getD (shortestFrom b (place - 1) bound)

/-- The shortest decimal of a binary fraction in the range of double precision. -/
def shortest (b : Binary) : Digits := shortestFrom b 309 700

/-- Whether a number in double precision is negative, minus zero included. -/
def isNegative (x : Float) : Bool := x.toBits.toNat.testBit 63

/-- The bit before the fraction of a number in double precision. It is not stored. -/
def leadingBit : Nat := 0x10000000000000

/-- The size of a finite number in double precision, none for zero. -/
def binary? (x : Float) : Option Binary :=
  let bits : Nat := x.toBits.toNat % 0x8000000000000000
  let stored : Nat := bits / leadingBit
  let fraction : Nat := bits % leadingBit
  if bits == 0 then none
  else if stored == 0 then some ⟨fraction, -1074, false⟩
  else some ⟨fraction + leadingBit, (stored : Int) - 1075, fraction == 0 && stored > 1⟩

/-- A run of zeros. -/
def zeros (n : Nat) : String := String.ofList (List.replicate n '0')

/-- The text of a decimal. A point is written where it stands within sixteen digits of the front or
fewer than five zeros before them, and an exponent with its sign otherwise. -/
def Digits.text (d : Digits) : String :=
  let digits := toString d.digits
  let length := digits.length
  let point := (length : Int) + d.exponent
  let cut (n : Nat) : String :=
    String.ofList (digits.toList.take n) ++ "." ++ String.ofList (digits.toList.drop n)
  if 0 ≤ d.exponent && point ≤ 16 then digits ++ zeros d.exponent.toNat ++ ".0"
  else if 0 < point && point ≤ 16 then cut point.toNat
  else if -5 < point && point ≤ 0 then "0." ++ zeros (-point).toNat ++ digits
  else (if length == 1 then digits else cut 1) ++ (if 0 < point then "e+" else "e") ++
    toString (point - 1)

/-- The text of a finite number in double precision. -/
def text (x : Float) : String :=
  (if isNegative x then "-" else "") ++
    match binary? x with
    | none => "0.0"
    | some b => (shortest b).text

end ControlFlow.Decimal
