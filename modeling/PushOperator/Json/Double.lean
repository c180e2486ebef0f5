/-!
# Numbers in double precision

Numbers that are no counters are kept in double precision. A finite double that is not negative is a
multiple of the least positive one, so it is kept as a natural number of these units; at most 53
bits of it, counted from the leading one, are significant.

A decimal becomes a double in steps: as many of its digits as fit 64 bits make a significand, the
significand is rounded, and then it is scaled by powers of ten, each of them rounded itself. The
text of a double has the fewest digits that read back as the same double, with a point among them
unless they are far from it.
-/

namespace PushOperator

/-- A finite double that is not negative, as a number of units. -/
structure Double where
  units : Nat
  deriving DecidableEq

namespace Double

/-- There are two to the power of this many units in the number one. -/
def unitBits : Nat := 1074

def precision : Nat := 53

/-- Doubles are less than two to this power. -/
def maxBits : Nat := 1024

/-! ## Rounding -/

/-- The natural number that is nearest to a ratio; a tie goes to the even one. -/
def nearest (n d : Nat) : Nat :=
  let q := n / d
  let twice := 2 * (n % d)
  if twice < d ∨ (twice = d ∧ q % 2 = 0) then q else q + 1

/-- The double that is nearest to a ratio; a tie goes to the even one. There is none for a ratio
that is too large. -/
def ofRatio? (n d : Nat) : Option Double :=
  let n := n <<< unitBits
  let excess := (n / d).log2 + 1 - precision
  let units := nearest n (d <<< excess) <<< excess
  if units.log2 < unitBits + maxBits then some ⟨units⟩ else none

def power (exponent : Nat) : Nat := Nat.pow 10 exponent

def ofDecimal? (digits : Nat) (exponent : Int) : Option Double :=
  ofRatio? (digits * power exponent.toNat) (power (-exponent).toNat)

def mul? (x y : Double) : Option Double := ofRatio? (x.units * y.units) (1 <<< (2 * unitBits))

def div? (x y : Double) : Option Double := ofRatio? x.units y.units

/-! ## Reading -/

/-- The largest power of ten that doubles are scaled by. -/
def maxPower : Nat := 308

/-- A double times a power of ten. Division by the largest power, twice, leaves nothing of a
significand of 64 bits, so there is no need for more than two of these. -/
def scale? (x : Double) (exponent : Int) : Nat → Option Double
  | 0 => some ⟨0⟩
  | divisions + 1 => do
    if x.units = 0 then return x
    else if maxPower < exponent then none
    else if 0 ≤ exponent then mul? x (← ofDecimal? 1 exponent)
    else if -maxPower ≤ exponent then div? x (← ofDecimal? 1 (-exponent))
    else scale? (← div? x (← ofDecimal? 1 maxPower)) (exponent + maxPower) divisions

/-- A significand with the digits of a run, up to the first one that does not fit 64 bits. The
second result is how many digits are left out. -/
def absorb (significand : Nat) (digits : List Char) : Nat × Nat :=
  match digits with
  | [] => (significand, 0)
  | c :: rest =>
    let next := significand * 10 + (c.toNat - '0'.toNat)
    if next < UInt64.size then absorb next rest else (significand, digits.length)

def ofDigits? (whole fraction : List Char) (exponent : Int) : Option Double := do
  let (significand, omitted) := absorb 0 whole
  let (significand, ignored) := absorb significand fraction
  let exponent := exponent + omitted - (fraction.length - ignored : Nat)
  scale? (← ofRatio? significand 1) exponent 3

/-! ## Writing -/

/-- More than the places before the first digit of any double. -/
def places : Nat := 340

/-- The place of the first digit of a positive double: zero for ones, negative after the point. -/
def leadingPlace (x : Double) : Int :=
  let shifted := (x.units * power places) >>> unitBits
  (toString shifted).length - 1 - places

/-- The two decimals with a number of digits that a double lies between, as digits and exponent, the
nearer one first. One that is rounded up to a power of ten would have a digit more, and is written
with a one instead. -/
def neighbours (x : Double) (count : Nat) : List (Nat × Int) :=
  let exponent := x.leadingPlace + 1 - count
  let n := x.units * power (-exponent).toNat
  let d := power exponent.toNat <<< unitBits
  let nearer := nearest n d
  let other := if nearer = n / d then nearer + 1 else n / d
  [nearer, other].map fun digits =>
    if digits = power count then (1, exponent + count) else (digits, exponent)

/-- The shortest decimal that reads back, as digits and exponent; of two, the nearer one. There is
one of seventeen digits at most. The double above a power of two is further away than the one below
it, so the nearer decimal may fail where the other one reads back. -/
def shortest (x : Double) : Nat × Int :=
  let readsBack := fun (digits, exponent) => ofDecimal? digits exponent == some x
  let found := (List.range 17).findSome? fun count => (x.neighbours (count + 1)).find? readsBack
  found.getD (0, 0)

/-- Doubles from this power of ten on are written with an exponent. -/
def maxPositional : Int := 16

/-- Doubles below this power of ten are written with an exponent. -/
def minPositional : Int := -5

/-- Digits with the point after `whole` of them; zeros fill the places up to the point and make sure
that there is a digit on either side. -/
def positional (digits : List Char) (whole : Int) : List Char :=
  if whole ≤ 0 then ['0', '.'] ++ List.replicate (-whole).toNat '0' ++ digits
  else if whole < digits.length then digits.take whole.toNat ++ '.' :: digits.drop whole.toNat
  else digits ++ List.replicate (whole.toNat - digits.length) '0' ++ ['.', '0']

/-- Digits with the point after the first one, if there are more, and the power of ten of that with
its sign. -/
def scientific (digits : List Char) (power : Int) : List Char :=
  let mantissa := if digits.length = 1 then digits else digits.take 1 ++ '.' :: digits.drop 1
  mantissa ++ ['e', if 0 ≤ power then '+' else '-'] ++ (toString power.natAbs).toList

def text (x : Double) : String :=
  if x.units = 0 then "0.0"
  else
    let (significand, exponent) := x.shortest
    let digits := (toString significand).toList
    let whole := digits.length + exponent
    String.ofList <|
      if minPositional < whole ∧ whole ≤ maxPositional then positional digits whole
      else scientific digits (whole - 1)

end Double

end PushOperator
