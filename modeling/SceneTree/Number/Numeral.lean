import SceneTree.Number.Binary64
import SceneTree.Text.Blank
import SceneTree.Text.Digit

/-!
# Numerals

Reading integers and decimals from text. A numeral may stand between blanks and carry a sign; its digits may be those
of any script, and a single underscore may stand between two of them. An integer of more than 4300 digits is refused,
leading zeros counted.
-/

namespace SceneTree.Numeral

/-- Why a text is no integer. -/
inductive Fault where
  | malformed
  | tooManyDigits (count : Nat)
  deriving DecidableEq, Repr

/-- What a decimal numeral denotes. -/
inductive Reading where
  | number (x : Binary64)
  | notANumber
  deriving DecidableEq, Repr

/-- The greatest number of digits of an integer. -/
def digitLimit : Nat := 4300

/-- The digit characters of ASCII. -/
def isAsciiDigit (c : Char) : Bool := '0' ≤ c && c ≤ '9'

/-- Digits of other scripts become those of ASCII; all other characters stay. -/
def normalized (c : Char) : Char :=
  if c.toNat < 128 then c
  else match Text.decimalValue? c with
    | some d => Char.ofNat (48 + d)
    | none => c

/-- A text without the blanks around it, its digits normalized. -/
def trimmed (text : List Char) : List Char :=
  (((text.dropWhile Text.isBlank).reverse.dropWhile Text.isBlank).reverse).map normalized

/-- Splits a sign off a numeral. -/
def signed : List Char → Bool × List Char
  | '-' :: rest => (true, rest)
  | '+' :: rest => (false, rest)
  | text => (false, text)

/-- Every underscore stands between two digits, given whether a digit stands just before the text. -/
def underscoresInside : (afterDigit : Bool) → List Char → Bool
  | _, [] => true
  | afterDigit, '_' :: rest =>
    afterDigit && (match rest with | c :: _ => isAsciiDigit c | [] => false) && underscoresInside false rest
  | _, c :: rest => underscoresInside (isAsciiDigit c) rest

/-- The number that a list of digits writes. -/
def ofDigits (digits : List Char) : Nat :=
  digits.foldl (fun n c => 10 * n + (c.toNat - 48)) 0

/-- An integer numeral. Its run of digits is judged first, then their number, then what follows. -/
def readInteger (text : List Char) : Except Fault Int :=
  let (negative, body) := signed (trimmed text)
  let run := body.takeWhile fun c => isAsciiDigit c || c == '_'
  let digits := run.filter isAsciiDigit
  if digits.isEmpty || !underscoresInside false run then .error .malformed
  else if digitLimit < digits.length then .error (.tooManyDigits digits.length)
  else if run.length < body.length then .error .malformed
  else .ok (if negative then -(ofDigits digits : Int) else ofDigits digits)

/-- The number `digits * 10 ^ exponent`, without computing powers that only lead to zero or to infinity. -/
def ofScientific (negative : Bool) (digits : List Char) (exponent : Int) : Binary64 :=
  let digits := digits.dropWhile (· == '0')
  let point := digits.length + exponent
  if digits.isEmpty || point < -400 then .finite negative 0 Binary64.leastExponent
  else if 400 < point then .infinite negative
  else Binary64.ofDecimal negative (ofDigits digits) exponent

/-- The exponent of a decimal numeral: nothing, or the letter and a signed run of digits. -/
def readExponent? : List Char → Option Int
  | [] => some 0
  | c :: rest =>
    if c = 'e' || c = 'E' then
      let (negative, digits) := signed rest
      if digits.isEmpty || !digits.all isAsciiDigit then none
      else some (if negative then -(ofDigits digits : Int) else ofDigits digits)
    else none

/-- An unsigned decimal numeral without underscores: digits with or without a point, and an exponent. -/
def readUnsigned? (negative : Bool) (text : List Char) : Option Binary64 :=
  let whole := text.takeWhile isAsciiDigit
  let rest := text.dropWhile isAsciiDigit
  let (fraction, tail) :=
    match rest with
    | '.' :: rest => (rest.takeWhile isAsciiDigit, rest.dropWhile isAsciiDigit)
    | _ => ([], rest)
  if whole.isEmpty && fraction.isEmpty then none
  else (readExponent? tail).map fun exponent => ofScientific negative (whole ++ fraction) (exponent - fraction.length)

/-- The small letter of an ASCII capital. -/
def asciiLower (c : Char) : Char :=
  if 'A' ≤ c && c ≤ 'Z' then Char.ofNat (c.toNat + 32) else c

/-- A decimal numeral, or one of the words for infinity and for what is not a number, in any case. -/
def readDecimal? (text : List Char) : Option Reading :=
  let body := trimmed text
  if !underscoresInside false body then none
  else
    let (negative, body) := signed (body.filter (· != '_'))
    let word := String.ofList (body.map asciiLower)
    if word = "inf" || word = "infinity" then some (.number (.infinite negative))
    else if word = "nan" then some .notANumber
    else (readUnsigned? negative body).map .number

end SceneTree.Numeral
