import SceneTree.Number.Binary64

/-!
# Shortest decimals

A floating-point number is written with the fewest decimal digits that read back as the same number, and of those with
the digits nearest to it. Where the point goes, and when an exponent is written instead, is a matter of layout.
-/

namespace SceneTree

/-- A decimal: `digits * 10 ^ exponent`. -/
structure Decimal where
  digits : Nat
  exponent : Int
  deriving DecidableEq, Repr

namespace Decimal

/-- Moves the zeros at the end of the digits into the exponent; a decimal has at most as many of them as digits. -/
def stripped (fuel : Nat) (d : Decimal) : Decimal :=
  match fuel with
  | 0 => d
  | fuel + 1 => if d.digits % 10 = 0 then stripped fuel ⟨d.digits / 10, d.exponent + 1⟩ else d

end Decimal

namespace Binary64

/-- A quotient divided by `10 ^ exponent`. -/
def tenfold (num den : Nat) (exponent : Int) : Nat × Nat :=
  let power := Nat.pow 10 exponent.natAbs
  if exponent < 0 then (num * power, den) else (num, den * power)

/-- The exponent of the leading decimal digit of a quotient, found among four by comparison. -/
def leadingExponent (num den : Nat) : Int :=
  let guess := ((Nat.log2 num : Int) - Nat.log2 den) * 1233 / 4096 - 1
  let fits (exponent : Int) : Bool :=
    let s := tenfold num den exponent
    s.2 ≤ s.1
  if fits (guess + 3) then guess + 3
  else if fits (guess + 2) then guess + 2
  else if fits (guess + 1) then guess + 1
  else guess

/-- The nearer of the two decimals around a quotient on the grid of `10 ^ exponent` that read back as `x`, if any. -/
def onGrid? (x : Binary64) (negative : Bool) (num den : Nat) (exponent : Int) : Option Decimal :=
  let s := tenfold num den exponent
  let below := s.1 / s.2
  let nearest := roundedQuotient s.1 s.2
  let other := if nearest = below then below + 1 else below
  if ofDecimal negative nearest exponent = x then some ⟨nearest, exponent⟩
  else if ofDecimal negative other exponent = x then some ⟨other, exponent⟩
  else none

/-- The first grid, from `count` more digits on the coarsest to the finest, that holds a decimal for `x`. -/
def firstGrid (x : Binary64) (negative : Bool) (num den : Nat) : (count : Nat) → (exponent : Int) → Decimal
  | 0, exponent =>
    let s := tenfold num den exponent
    ⟨roundedQuotient s.1 s.2, exponent⟩
  | count + 1, exponent =>
    match onGrid? x negative num den exponent with
    | some d => d
    | none => firstGrid x negative num den count (exponent - 1)

/-- The shortest decimal of the magnitude of a finite number; seventeen digits are always enough. -/
def shortest (negative : Bool) (mantissa : Nat) (exponent : Int) : Decimal :=
  if mantissa = 0 then ⟨0, 0⟩
  else
    let s := scaled mantissa 1 (-exponent)
    (firstGrid (.finite negative mantissa exponent) negative s.1 s.2 16 (leadingExponent s.1 s.2)).stripped 17

end Binary64

/-- How a decimal is laid out: between which positions of the point it is written without an exponent, and with how
many digits the exponent is written at least. -/
structure DecimalLayout where
  leastPoint : Int
  greatestPoint : Int
  exponentDigits : Nat

namespace DecimalLayout

/-- The digits of a decimal with a point among them, after `point` digits; a zero stands on a side without digits. -/
def positional (digits : List Char) (point : Int) : List Char :=
  if point ≤ 0 then '0' :: '.' :: (List.replicate point.natAbs '0' ++ digits)
  else if digits.length ≤ point.natAbs then
    digits ++ List.replicate (point.natAbs - digits.length) '0' ++ ['.', '0']
  else digits.take point.natAbs ++ '.' :: digits.drop point.natAbs

/-- The digits of a decimal with the point after the first one, and the exponent with its sign. -/
def scientific (layout : DecimalLayout) (digits : List Char) (exponent : Int) : List Char :=
  let shown := (Nat.repr exponent.natAbs).toList
  let fraction := if digits.length ≤ 1 then [] else '.' :: digits.drop 1
  digits.take 1 ++ fraction ++ 'e' :: (if exponent < 0 then '-' else '+') ::
    (List.replicate (layout.exponentDigits - shown.length) '0' ++ shown)

/-- The text of a decimal. -/
def write (layout : DecimalLayout) (negative : Bool) (d : Decimal) : List Char :=
  let digits := (Nat.repr d.digits).toList
  let point := digits.length + d.exponent
  let magnitude :=
    if layout.leastPoint ≤ point && point ≤ layout.greatestPoint then positional digits point
    else layout.scientific digits (point - 1)
  if negative then '-' :: magnitude else magnitude

end DecimalLayout

/-- Numbers are written without an exponent from `0.0001` up to sixteen digits before the point, and otherwise with at
least two digits of exponent. -/
def Binary64.layout : DecimalLayout := ⟨-3, 16, 2⟩

/-- The text of a number. -/
def Binary64.toText : Binary64 → String
  | .infinite negative => if negative then "-inf" else "inf"
  | .finite negative mantissa exponent =>
    String.ofList (Binary64.layout.write negative (Binary64.shortest negative mantissa exponent))

end SceneTree
