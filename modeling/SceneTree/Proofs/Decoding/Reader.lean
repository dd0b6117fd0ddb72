import SceneTree.JsonText.Quoting
import SceneTree.Number.Numeral

/-!
# Reading JSON

What a text is as JSON. Between the tokens may stand blanks; a number is kept as it is written, and the words for
infinity and for what is no number are read as numbers. Where a key of an object comes again, its last value counts. An
escape of half a character is refused, because no text holds one.
-/

namespace SceneTree

/-- A value of JSON, with numbers by their texts. -/
inductive Json where
  | null
  | bool (b : Bool)
  | number (text : String)
  | string (s : String)
  | array (items : List Json)
  | object (entries : List (String × Json))
  deriving Repr, Inhabited

namespace Json

/-- Gives a value to a key: a key that is there already keeps its place, a new one goes to the end. -/
def put : List (String × Json) → String → Json → List (String × Json)
  | [], key, j => [(key, j)]
  | (k, i) :: rest, key, j => if k = key then (k, j) :: rest else (k, i) :: put rest key j

/-- The object that some entries make up, one after the other. -/
def ofPairs (pairs : List (String × Json)) : Json :=
  .object (pairs.foldl (fun entries (key, j) => put entries key j) [])

/-- What an object gives to a key. -/
def get? : Json → String → Option Json
  | .object entries, key => entries.lookup key
  | _, _ => none

end Json

namespace JsonText
open Numeral (isAsciiDigit)

/-- The characters that may stand between tokens. -/
def isBlank (c : Char) : Bool := c = ' ' || c = '\n' || c = '\r' || c = '\t'

/-- A text from its first character on that is no blank. -/
def skip (chars : List Char) : List Char := chars.dropWhile isBlank

/-- The character that a letter after a backslash stands for. -/
def escaped? : Char → Option Char
  | '"' => some '"'
  | '\\' => some '\\'
  | '/' => some '/'
  | 'b' => some '\x08'
  | 'f' => some '\x0c'
  | 'n' => some '\n'
  | 'r' => some '\r'
  | 't' => some '\t'
  | _ => none

/-- The value of a hexadecimal digit. -/
def hexValue? (c : Char) : Option Nat :=
  if '0' ≤ c && c ≤ '9' then some (c.toNat - 48)
  else if 'a' ≤ c && c ≤ 'f' then some (c.toNat - 87)
  else if 'A' ≤ c && c ≤ 'F' then some (c.toNat - 55)
  else none

/-- The number that the first four characters write in hexadecimal digits, and what follows them. -/
def readUnit? : List Char → Option (Nat × List Char)
  | a :: b :: c :: d :: rest => do
    some (((16 * (← hexValue? a) + (← hexValue? b)) * 16 + (← hexValue? c)) * 16 + (← hexValue? d), rest)
  | _ => none

/-- The character whose code stands at the beginning. One beyond the first 65536 takes two halves, each an escape. -/
def readCode? (chars : List Char) : Option (Char × List Char) := do
  let (unit, rest) ← readUnit? chars
  if 0xD800 ≤ unit && unit ≤ 0xDBFF then
    match rest with
    | '\\' :: 'u' :: rest =>
      let (low, rest) ← readUnit? rest
      if 0xDC00 ≤ low && low ≤ 0xDFFF then
        some (Char.ofNat (0x10000 + (unit - 0xD800) * 0x400 + (low - 0xDC00)), rest)
      else none
    | _ => none
  else if 0xDC00 ≤ unit && unit ≤ 0xDFFF then none
  else some (Char.ofNat unit, rest)

/-- The first character of a text between quotes, which may be an escape. -/
def readChar? : List Char → Option (Char × List Char)
  | '\\' :: 'u' :: rest => readCode? rest
  | '\\' :: c :: rest => (escaped? c).map fun c => (c, rest)
  | c :: rest => if c = '"' || c = '\\' || c.toNat < 32 then none else some (c, rest)
  | [] => none

/-- The characters of a text up to the quote that ends it; `fuel` is more than their number. -/
def readChars? : (fuel : Nat) → List Char → Option (List Char × List Char)
  | 0, _ => none
  | _ + 1, '"' :: rest => some ([], rest)
  | fuel + 1, chars => do
    let (c, rest) ← readChar? chars
    let (text, rest) ← readChars? fuel rest
    some (c :: text, rest)

/-- The text whose opening quote has just been read. -/
def readString? (chars : List Char) : Option (String × List Char) :=
  (readChars? (chars.length + 1) chars).map fun (text, rest) => (String.ofList text, rest)

/-- The digits at the beginning, and what follows them. -/
def digitsOf (chars : List Char) : List Char × List Char :=
  (chars.takeWhile isAsciiDigit, chars.dropWhile isAsciiDigit)

/-- A minus sign, if one stands at the beginning. -/
def readSign : List Char → List Char × List Char
  | '-' :: rest => (['-'], rest)
  | chars => ([], chars)

/-- The digits before the point: a zero, or digits that begin with another one. -/
def readWhole? : List Char → Option (List Char × List Char)
  | '0' :: rest => some (['0'], rest)
  | chars => if (digitsOf chars).1.isEmpty then none else some (digitsOf chars)

/-- A point with the digits after it, if there are any. -/
def readFraction : List Char → List Char × List Char
  | '.' :: rest =>
    if (digitsOf rest).1.isEmpty then ([], '.' :: rest) else ('.' :: (digitsOf rest).1, (digitsOf rest).2)
  | chars => ([], chars)

/-- The sign of an exponent, if there is one. -/
def readExponentSign : List Char → List Char × List Char
  | '-' :: rest => (['-'], rest)
  | '+' :: rest => (['+'], rest)
  | chars => ([], chars)

/-- An exponent, if there is one. -/
def readExponent : List Char → List Char × List Char
  | [] => ([], [])
  | c :: rest =>
    let (sign, after) := readExponentSign rest
    if (c = 'e' || c = 'E') && !(digitsOf after).1.isEmpty then (c :: (sign ++ (digitsOf after).1), (digitsOf after).2)
    else ([], c :: rest)

/-- The number at the beginning. -/
def readNumber? (chars : List Char) : Option (List Char × List Char) := do
  let (sign, rest) := readSign chars
  let (whole, rest) ← readWhole? rest
  let (fraction, rest) := readFraction rest
  let (exponent, rest) := readExponent rest
  some (sign ++ whole ++ fraction ++ exponent, rest)

/-- The words, each with what it stands for. -/
def words : List (String × Json) :=
  [("null", .null), ("true", .bool true), ("false", .bool false), ("NaN", .number "NaN"),
    ("Infinity", .number "Infinity"), ("-Infinity", .number "-Infinity")]

/-- The word or number at the beginning. -/
def readPlain? (chars : List Char) : Option (Json × List Char) :=
  match words.find? fun (word, _) => word.toList.isPrefixOf chars with
  | some (word, j) => some (j, chars.drop word.length)
  | none => (readNumber? chars).map fun (text, rest) => (.number (String.ofList text), rest)

mutual

/-- The value at the beginning, and what follows it; `fuel` bounds how many readers call one another. -/
def readValue? : (fuel : Nat) → List Char → Option (Json × List Char)
  | 0, _ => none
  | fuel + 1, chars =>
    match chars with
    | '"' :: rest => (readString? rest).map fun (s, rest) => (.string s, rest)
    | '[' :: rest =>
      match skip rest with
      | ']' :: rest => some (.array [], rest)
      | rest => (readItems? fuel rest).map fun (items, rest) => (.array items, rest)
    | '\x7b' :: rest =>
      match skip rest with
      | '\x7d' :: rest => some (.object [], rest)
      | rest => (readEntries? fuel rest).map fun (pairs, rest) => (.ofPairs pairs, rest)
    | chars => readPlain? chars

/-- The items of an array up to the bracket that ends it. -/
def readItems? : (fuel : Nat) → List Char → Option (List Json × List Char)
  | 0, _ => none
  | fuel + 1, chars => do
    let (item, rest) ← readValue? fuel chars
    match skip rest with
    | ',' :: rest =>
      let (items, rest) ← readItems? fuel (skip rest)
      some (item :: items, rest)
    | ']' :: rest => some ([item], rest)
    | _ => none

/-- The entries of an object up to the brace that ends it. -/
def readEntries? : (fuel : Nat) → List Char → Option (List (String × Json) × List Char)
  | fuel + 1, '"' :: chars => do
    let (key, rest) ← readString? chars
    match skip rest with
    | ':' :: rest =>
      let (j, rest) ← readValue? fuel (skip rest)
      match skip rest with
      | ',' :: rest =>
        let (pairs, rest) ← readEntries? fuel (skip rest)
        some ((key, j) :: pairs, rest)
      | '\x7d' :: rest => some ([(key, j)], rest)
      | _ => none
    | _ => none
  | _, _ => none

end

/-- The value that a text is, if it is one and nothing else. -/
def read (text : String) : Option Json :=
  match readValue? (2 * text.toList.length + 1) (skip text.toList) with
  | some (j, rest) => if (skip rest).isEmpty then some j else none
  | none => none

/-! ## Texts between quotes -/

open Text (hexDigit hexadecimal)

variable {rest : List Char}

theorem hexValue?_hexDigit {d : Nat} (h : d < 16) : hexValue? (hexDigit d) = some d := by
  have hall : ∀ d < 16, hexValue? (hexDigit d) = some d := by decide
  exact hall d h

/-- Four hexadecimal digits are read as the number that they write. -/
theorem readUnit?_hexadecimal {n : Nat} (h : n < 65536) : readUnit? (hexadecimal 4 n ++ rest) = some (n, rest) := by
  have hvalue : (((16 * (n / 16 / 16 / 16 % 16) + n / 16 / 16 % 16) * 16 + n / 16 % 16) * 16 + n % 16) = n := by omega
  simp only [hexadecimal, List.nil_append, List.cons_append, readUnit?, Option.bind_eq_bind,
    hexValue?_hexDigit (Nat.mod_lt _ (by decide : 0 < 16)), Option.bind_some, hvalue]

/-- One character between quotes is read as itself. -/
theorem readChar?_quotedChar (c : Char) (rest : List Char) : readChar? (quotedChar c ++ rest) = some (c, rest) := by
  have hescaped : ∀ p ∈ [('"', '"'), ('\\', '\\'), ('\n', 'n'), ('\r', 'r'), ('\t', 't'), ('\x08', 'b'), ('\x0c', 'f')],
      readChar? (['\\', p.2] ++ rest) = some (p.1, rest) := by
    simp [readChar?, escaped?]
  simp only [List.forall_mem_cons] at hescaped
  obtain ⟨hquote, hbackslash, hn, hr, ht, hb, hf, -⟩ := hescaped
  unfold quotedChar
  split
  · next h => exact h ▸ hquote
  split
  · next h => exact h ▸ hbackslash
  split
  · next h => exact h ▸ hn
  split
  · next h => exact h ▸ hr
  split
  · next h => exact h ▸ ht
  split
  · next h => exact h ▸ hb
  split
  · next h => exact h ▸ hf
  split
  · rw [List.cons_append, List.cons_append, readChar?, readCode?, readUnit?_hexadecimal (by omega)]
    simp only [Option.bind_eq_bind, Option.bind_some]
    rw [if_neg (by simp; omega), if_neg (by simp; omega), Char.ofNat_toNat]
  · next hquote hbackslash _ _ _ _ _ hprinted =>
    rw [List.singleton_append, readChar?]
    · simp [hquote, hbackslash, hprinted]
    all_goals
      intros
      contradiction

/-- The characters of a text between quotes are read up to the quote that ends it. -/
theorem readChars?_quoted (text : List Char) {fuel : Nat} (h : text.length < fuel) :
    readChars? fuel (text.flatMap quotedChar ++ '"' :: rest) = some (text, rest) := by
  induction text generalizing fuel with
  | nil =>
    obtain ⟨fuel, rfl⟩ := Nat.exists_eq_add_of_lt h
    rfl
  | cons c text ih =>
    obtain ⟨fuel, rfl⟩ : ∃ fuel', fuel = fuel' + 1 := ⟨fuel - 1, by omega⟩
    have hread := readChar?_quotedChar c (text.flatMap quotedChar ++ '"' :: rest)
    rw [List.flatMap_cons, List.append_assoc, readChars?, hread]
    · simp only [Option.bind_eq_bind, Option.bind_some]
      rw [ih (by simpa using h)]
      rfl
    · intro after hafter
      rw [hafter] at hread
      cases hread

/-- A character takes up some room between quotes. -/
theorem length_le_length_flatMap_quotedChar (text : List Char) : text.length ≤ (text.flatMap quotedChar).length := by
  induction text with
  | nil => exact Nat.le_refl _
  | cons c text ih =>
    have hroom : 0 < (quotedChar c).length := by
      refine List.length_pos_iff.mpr fun hnil => ?_
      have hread := readChar?_quotedChar c []
      rw [hnil] at hread
      cases hread
    rw [List.flatMap_cons, List.length_append, List.length_cons]
    omega

/-- A text between quotes is read as that text. -/
theorem readString?_quoted (text : List Char) :
    readString? (text.flatMap quotedChar ++ '"' :: rest) = some (String.ofList text, rest) := by
  have hlength := length_le_length_flatMap_quotedChar text
  rw [readString?, readChars?_quoted]
  · rfl
  · simp only [List.length_append, List.length_cons]
    omega

end JsonText

end SceneTree
