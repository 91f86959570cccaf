/-! Real numbers with 53 significant bits: the nearest one to a decimal, and the shortest decimal that reads back. All
arithmetic is exact, on natural numbers. -/

namespace ComponentDocs.Json

/-- `finite negative m q` stands for m · 2 ^ q, with `m < 2 ^ 53` and `-1074 ≤ q ≤ 971`, and `2 ^ 52 ≤ m` unless
`q = -1074`. -/
inductive Real where
  | finite (negative : Bool) (mantissa : Nat) (exponent : Int)
  | infinite (negative : Bool)
  | undefined
deriving DecidableEq, Repr

namespace Real

def divideEven (numerator denominator : Nat) : Nat :=
  let quotient := numerator / denominator
  let twice := 2 * (numerator % denominator)
  if twice < denominator then quotient
  else if twice = denominator ∧ quotient % 2 = 0 then quotient
  else quotient + 1

def power (base : Nat) (exponent : Int) : Nat × Nat := (base.pow exponent.toNat, base.pow (-exponent).toNat)

def scaled (numerator denominator : Nat) (exponent : Int) : Nat :=
  let unit := power 2 exponent
  divideEven (numerator * unit.2) (denominator * unit.1)

def limit : Nat := Nat.pow 2 53

/-- The real number nearest to a positive fraction. The first guess of the exponent is at most one too small, and then
the mantissa comes out with a bit too many. -/
def ofFraction (negative : Bool) (numerator denominator : Nat) : Real :=
  let size : Int := (numerator.log2 : Int) - denominator.log2 - 53
  let guess := if size < -1074 then -1074 else size
  let exponent := if scaled numerator denominator guess < limit then guess else guess + 1
  let mantissa := scaled numerator denominator exponent
  let (mantissa, exponent) := if mantissa = limit then (limit / 2, exponent + 1) else (mantissa, exponent)
  if 971 < exponent then .infinite negative else .finite negative mantissa exponent

def digitCount (n : Nat) : Nat := (Nat.toDigits 10 n).length

def ofDecimal (negative : Bool) (digits : Nat) (exponent : Int) : Real :=
  let size := exponent + digitCount digits
  if digits = 0 ∨ size < -330 then .finite negative 0 (-1074)
  else if 310 < size then .infinite negative
  else
    let unit := power 10 exponent
    ofFraction negative (digits * unit.1) unit.2

def isZero : Real → Bool
  | .finite _ 0 _ => true
  | _ => false

def magnitude (numerator denominator : Nat) : Int :=
  let guess : Int := (digitCount numerator : Int) - digitCount denominator
  let unit := power 10 guess
  if numerator * unit.2 < denominator * unit.1 then guess else guess + 1

/-- The decimal with `count` digits that reads back as `mantissa · 2 ^ exponent` and lies nearest to it, if one does. Of
two that lie equally near, the one with the even last digit is taken. -/
def decimalWith (mantissa : Nat) (exponent : Int) (count : Nat) : Option (Nat × Int) :=
  let binary := power 2 exponent
  let numerator := mantissa * binary.1
  let shift := magnitude numerator binary.2 - count
  let unit := power 10 shift
  let top := numerator * unit.2
  let bottom := binary.2 * unit.1
  let below := top / bottom
  let nearer := if divideEven top bottom = below then [below, below + 1] else [below + 1, below]
  (nearer.find? fun digits => ofDecimal false digits shift == .finite false mantissa exponent).map (·, shift)

def shortest (mantissa : Nat) (exponent : Int) : Nat × Int :=
  ((List.range 17).findSome? fun count => decimalWith mantissa exponent (count + 1)).getD (0, 0)

def zeros (count : Nat) : String := String.ofList (List.replicate count '0')

/-- Positional from 0.0001 up to below 10 ^ 16, with a digit after the point; otherwise one digit before the point and
an exponent with a sign and at least two digits. -/
def layout (digits : String) (power : Int) : String :=
  let point := power + digits.length
  if -4 < point ∧ point ≤ 16 then
    if point ≤ 0 then "0." ++ zeros (-point).toNat ++ digits
    else if digits.length ≤ point.toNat then digits ++ zeros (point.toNat - digits.length) ++ ".0"
    else String.ofList (digits.toList.take point.toNat) ++ "." ++ String.ofList (digits.toList.drop point.toNat)
  else
    let exponent := point - 1
    let fraction := digits.toList.drop 1
    let size := toString exponent.natAbs
    String.ofList (digits.toList.take 1) ++ (if fraction.isEmpty then "" else "." ++ String.ofList fraction) ++
      "e" ++ (if exponent < 0 then "-" else "+") ++ zeros (2 - size.length) ++ size

def dropTrailingZeros : Nat → Nat → Int → Nat × Int
  | 0, digits, power => (digits, power)
  | fuel + 1, digits, power =>
    if digits ≠ 0 ∧ digits % 10 = 0 then dropTrailingZeros fuel (digits / 10) (power + 1) else (digits, power)

def render : Real → String
  | .undefined => "NaN"
  | .infinite negative => (if negative then "-" else "") ++ "Infinity"
  | .finite negative mantissa exponent =>
    let sign := if negative then "-" else ""
    if mantissa = 0 then sign ++ "0.0"
    else
      let (digits, power) := shortest mantissa exponent
      let (digits, power) := dropTrailingZeros 17 digits power
      sign ++ layout (toString digits) power

end Real

end ComponentDocs.Json
