import ControlFlow.Decimal

/-! Numbers of a JSON text. Whole numbers of 64 bits are kept exactly; all others are numbers in
double precision, read by one multiplication or division with a power of ten. -/
namespace ControlFlow.Json

/-- Why a text is not read: it is not JSON, or it ends too early. -/
inductive Fault where
  | malformed
  | cutOff
deriving DecidableEq, Repr

/-- A number as it is written: a whole number of 64 bits, or a significand of 64 bits and a power
of ten. -/
inductive Number where
  | whole (value : Int)
  | scaled (negative : Bool) (significand : Nat) (exponent : Int)
deriving DecidableEq, Repr

/-- Numbers below this one have 64 bits. -/
def wordLimit : Nat := 0x10000000000000000

/-- The digits of a run that a significand of 64 bits can still take, and those that are left. -/
def takeDigits (significand : Nat) : List Char → Nat × List Char
  | [] => (significand, [])
  | c :: cs =>
    let more := 10 * significand + (c.toNat - '0'.toNat)
    if more < wordLimit then takeDigits more cs else (significand, c :: cs)

/-- Passes over a run of digits, which must not be empty. -/
def scanDigits (cs : List Char) : Except Fault (List Char × List Char) :=
  match cs.takeWhile Char.isDigit, cs.dropWhile Char.isDigit with
  | [], [] => .error .cutOff
  | [], _ :: _ => .error .malformed
  | digits, rest => .ok (digits, rest)

/-- Passes over the digits before the point. A zero stands alone. -/
def scanWhole : List Char → Except Fault (List Char × List Char)
  | '0' :: cs =>
    match cs with
    | c :: _ => if c.isDigit then .error .malformed else .ok (['0'], cs)
    | [] => .ok (['0'], [])
  | cs => scanDigits cs

/-- Passes over an exponent behind its letter. -/
def scanExponent : List Char → Except Fault (Int × List Char)
  | '-' :: cs => do
    let (digits, rest) ← scanDigits cs
    pure (-(valueOf digits), rest)
  | '+' :: cs => do
    let (digits, rest) ← scanDigits cs
    pure (valueOf digits, rest)
  | cs => do
    let (digits, rest) ← scanDigits cs
    pure (valueOf digits, rest)
where
  valueOf (digits : List Char) : Int :=
    digits.foldl (fun value c => 10 * value + ((c.toNat : Int) - '0'.toNat)) 0

/-- The number without point and exponent. -/
def Number.ofWhole (negative : Bool) (significand : Nat) (dropped : Nat) : Number :=
  if dropped != 0 then .scaled negative significand dropped
  else if !negative then .whole significand
  else if significand == 0 || significand > wordLimit / 2 then .scaled true significand 0
  else .whole (-(significand : Int))

/-- Passes over a number behind its sign. -/
def scanNumber (negative : Bool) (cs : List Char) : Except Fault (Number × List Char) := do
  let (whole, rest) ← scanWhole cs
  let (significand, dropped) := takeDigits 0 whole
  let (significand, exponent, isWhole, rest) ← match rest with
    | '.' :: rest => do
      let (fraction, rest) ← scanDigits rest
      let (more, left) := takeDigits significand fraction
      pure (more, (dropped.length : Int) - (fraction.length - left.length : Nat), false, rest)
    | rest => pure (significand, (dropped.length : Int), true, rest)
  match rest with
  | 'e' :: rest | 'E' :: rest => do
    let (shift, rest) ← scanExponent rest
    pure (.scaled negative significand (exponent + shift), rest)
  | rest =>
    if isWhole then pure (.ofWhole negative significand dropped.length, rest)
    else pure (.scaled negative significand exponent, rest)

/-- A power of ten in double precision. -/
def tenTo (n : Nat) : Float := Float.ofScientific 1 false n

/-- A significand times a power of ten, none beyond the range. Powers that are out of range
themselves are taken in steps. -/
def scale? (x : Float) (exponent : Int) : Nat → Option Float
  | 0 => some x
  | bound + 1 =>
    if exponent.natAbs ≤ 308 then
      if exponent < 0 then some (x / tenTo exponent.natAbs)
      else if (x * tenTo exponent.natAbs).isInf then none
      else some (x * tenTo exponent.natAbs)
    else if x == 0 then some x
    else if exponent > 0 then none
    else scale? (x / tenTo 308) (exponent + 308) bound

/-- The value of a significand and a power of ten in double precision, none beyond the range. Three
divisions by the largest power make every significand zero. -/
def toFloat? (significand : Nat) (exponent : Int) : Option Float :=
  scale? significand.toUInt64.toFloat exponent 5

/-- Whether a number is in the range of double precision. -/
def Number.inRange : Number → Bool
  | .whole _ => true
  | .scaled _ significand exponent => (toFloat? significand exponent).isSome

/-- The text of a number: its digits, or the shortest decimal of its value in double precision. -/
def Number.text : Number → String
  | .whole value => toString value
  | .scaled negative significand exponent =>
    (if negative then "-" else "") ++ Decimal.text ((toFloat? significand exponent).getD 0)

end ControlFlow.Json
