/-!
# Binary floating point

The numbers of the binary64 format and the two infinities. Every operation is exact arithmetic on natural numbers
followed by one rounding, to the nearest number of the format and to an even mantissa where two are equally near.
-/

namespace SceneTree

/-- A number of the binary64 format: an infinity, or a sign with `mantissa * 2 ^ exponent`. -/
inductive Binary64 where
  | infinite (negative : Bool)
  | finite (negative : Bool) (mantissa : Nat) (exponent : Int)
  deriving DecidableEq, Repr

namespace Binary64

/-- The least exponent of the format. -/
def leastExponent : Int := -1074

/-- The greatest exponent of the format. -/
def greatestExponent : Int := 971

/-- The first number with 54 binary digits, one more than a mantissa has. -/
def mantissaBound : Nat := Nat.pow 2 53

/-- The quotient of two natural numbers to the nearest integer; a half goes to the even neighbour. -/
def roundedQuotient (num den : Nat) : Nat :=
  let q := num / den
  let twice := 2 * (num % den)
  if twice < den then q else if den < twice then q + 1 else q + q % 2

/-- A quotient divided by `2 ^ exponent`. -/
def scaled (num den : Nat) (exponent : Int) : Nat × Nat :=
  let power := Nat.pow 2 exponent.natAbs
  if exponent < 0 then (num * power, den) else (num, den * power)

/-- The exponent at which a quotient has 53 binary digits, or the least exponent where it has fewer. -/
def exponentOf (num den : Nat) : Int :=
  let guess := max leastExponent ((Nat.log2 num : Int) - Nat.log2 den - 53)
  let s := scaled num den guess
  if mantissaBound * s.2 ≤ s.1 then guess + 1 else guess

/-- A mantissa that rounding has carried to 54 digits moves to the next exponent; past the last one it is infinite. -/
def ofMantissa (negative : Bool) (mantissa : Nat) (exponent : Int) : Binary64 :=
  let carried := mantissa = mantissaBound
  let exponent' := if carried then exponent + 1 else exponent
  if greatestExponent < exponent' then .infinite negative
  else .finite negative (if carried then mantissaBound / 2 else mantissa) exponent'

/-- The number of the format that is nearest to a quotient of natural numbers. -/
def ofRatio (negative : Bool) (num den : Nat) : Binary64 :=
  if num = 0 then .finite negative 0 leastExponent
  else
    let exponent := exponentOf num den
    let s := scaled num den exponent
    ofMantissa negative (roundedQuotient s.1 s.2) exponent

/-- The number that is nearest to `digits * 10 ^ exponent`. -/
def ofDecimal (negative : Bool) (digits : Nat) (exponent : Int) : Binary64 :=
  let power := Nat.pow 10 exponent.natAbs
  if exponent < 0 then ofRatio negative digits power else ofRatio negative (digits * power) 1

/-- The number that is nearest to an integer over a divisor; none where that is beyond every finite number. -/
def ofQuotient? (n : Int) (den : Nat) : Option Binary64 :=
  match ofRatio (n < 0) n.natAbs den with
  | .infinite _ => none
  | x => some x

/-- The exact value of a finite number as an integer over a natural number. -/
def toRatio? : Binary64 → Option (Int × Nat)
  | .infinite _ => none
  | .finite negative mantissa exponent =>
    let s := scaled mantissa 1 (-exponent)
    some (if negative then -(s.1 : Int) else s.1, s.2)

/-- Half of a number. -/
def half : Binary64 → Binary64
  | .infinite negative => .infinite negative
  | .finite negative mantissa exponent =>
    let s := scaled mantissa 1 (-exponent)
    ofRatio negative s.1 (2 * s.2)

/-- Equality of values: the two zeros are equal, and an infinity equals itself alone. -/
def equals : Binary64 → Binary64 → Bool
  | .infinite n, .infinite n' => n == n'
  | x, y =>
    match x.toRatio?, y.toRatio? with
    | some (a, b), some (c, d) => a * d == c * b
    | _, _ => false

/-- Equality with an integer, by exact value. -/
def equalsInt (x : Binary64) (n : Int) : Bool :=
  match x.toRatio? with
  | some (a, b) => a == n * b
  | none => false

/-- The integer that a number is; none where it has a fraction or is infinite. -/
def toInt? (x : Binary64) : Option Int :=
  match x.toRatio? with
  | some (a, b) => if a % b = 0 then some (a / b) else none
  | none => none

end Binary64

end SceneTree
