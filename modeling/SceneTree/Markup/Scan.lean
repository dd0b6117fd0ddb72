import SceneTree.Markup.Token
import SceneTree.Text.Digit
import SceneTree.Text.Letter
import SceneTree.Text.Quoted

/-!
# From text to tokens

A text is read from its beginning: at each place stands a blank, a comment or a token, whose extent depends only on what
follows. Blanks and comments leave no token. Reading fails at a character that can begin nothing, and at the opening
quote of a string that is not closed on its line.
-/

namespace SceneTree.Markup

/-- Why a text falls into no tokens. -/
inductive ScanCause where
  | unexpected (c : Char)
  | unclosedString
  deriving DecidableEq, Repr

/-- A cause, and the place where it arose. -/
structure ScanFault where
  cause : ScanCause
  position : Position
  deriving DecidableEq, Repr

/-- The wording of a fault. -/
def ScanFault.message (fault : ScanFault) : String :=
  match fault.cause with
  | .unexpected c =>
    "Unexpected character " ++ Text.quoted (String.singleton c) ++ " at " ++ fault.position.toText ++ "."
  | .unclosedString => "Unterminated string literal at " ++ fault.position.toText ++ "."

/-- The characters between tokens. A mark of byte order may stand anywhere. -/
def isGap (c : Char) : Bool := c = '\ufeff' || c = ' ' || c = '\t' || c = '\r'

/-- Whether a name may begin with a character. -/
def beginsName (c : Char) : Bool := Text.isLetter c || c = '_'

/-- Whether a name may go on with a character. -/
def continuesName (c : Char) : Bool := Text.isAlphanumeric c || c = '_'

/-- Whether a text begins with a digit. -/
def digitNext : List Char → Bool
  | c :: _ => Text.isDigit c
  | [] => false

/-- Whether a number begins with `c` before `rest`: a digit, or a sign or a point and then a digit, or a sign, a point
and a digit. -/
def beginsNumber (c : Char) (rest : List Char) : Bool :=
  Text.isDigit c || (c = '-' || c = '.') && digitNext rest ||
    c = '-' && (match rest with
      | '.' :: rest => digitNext rest
      | _ => false)

/-- The digits at the beginning of a text, with at most one point among them, or none if there was one before. -/
def numberRun : (pointSeen : Bool) → List Char → List Char
  | _, [] => []
  | pointSeen, c :: rest =>
    if Text.isDigit c then c :: numberRun pointSeen rest
    else if c = '.' && !pointSeen then c :: numberRun true rest
    else []

/-- The part of a number after its first character. -/
def numberRest (c : Char) (rest : List Char) : List Char := numberRun (c = '.') rest

/-- What stands before the closing quote of a string, as it is written; a backslash takes the next character with it,
and a bare line break comes too early. -/
def stringBody? (quote : Char) : List Char → Option (List Char)
  | [] => none
  | c :: rest =>
    if c = quote then some []
    else if c = '\n' then none
    else if c = '\\' then
      match rest with
      | [] => none
      | d :: rest => (stringBody? quote rest).map fun body => c :: d :: body
    else (stringBody? quote rest).map (c :: ·)

/-- What a backslash and a character stand for. -/
def escaped : Char → Char
  | 'n' => '\n'
  | 'r' => '\r'
  | 't' => '\t'
  | c => c

/-- What the inside of a string stands for. -/
def unescape : List Char → List Char
  | '\\' :: c :: rest => escaped c :: unescape rest
  | c :: rest => c :: unescape rest
  | [] => []

/-- What stands at a place: the kind and the text of a token, or nothing, and how many characters after the first one
belong to it. -/
abbrev Lexeme := Option (TokenKind × List Char) × Nat

/-- What begins with the character `c` before `rest`. -/
def lexeme (c : Char) (rest : List Char) : Except ScanCause Lexeme :=
  if isGap c then .ok (none, 0)
  else if c = '\n' then .ok (some (.newline, [c]), 0)
  else if c = '#' then .ok (none, (rest.takeWhile (· != '\n')).length)
  else if c = '"' || c = '\'' then
    match stringBody? c rest with
    | some body => .ok (some (.string, unescape body), body.length + 1)
    | none => .error .unclosedString
  else if beginsNumber c rest then
    let more := numberRest c rest
    .ok (some (.number, c :: more), more.length)
  else if beginsName c then
    let more := rest.takeWhile continuesName
    let kind := if keywords.contains (String.ofList (c :: more)) then .keyword else .name
    .ok (some (kind, c :: more), more.length)
  else
    match Sign.ofChar? c with
    | some sign => .ok (some (.sign sign, [c]), 0)
    | none => .error (.unexpected c)

/-- The tokens of the rest of a text that begins at a place. -/
def scanFrom (position : Position) (text : List Char) : Except ScanFault (List Token) :=
  match text with
  | [] => .ok [⟨.ending, "", position⟩]
  | c :: rest =>
    match lexeme c rest with
    | .error cause => .error ⟨cause, position⟩
    | .ok (found, more) => do
      let tokens ← scanFrom (position.afterAll (c :: rest.take more)) (rest.drop more)
      match found with
      | some (kind, text) => .ok (⟨kind, String.ofList text, position⟩ :: tokens)
      | none => .ok tokens
termination_by text.length
decreasing_by simp only [List.length_drop, List.length_cons]; omega

/-- The tokens of a text. -/
def scan (text : String) : Except ScanFault (List Token) := scanFrom .start text.toList

end SceneTree.Markup
