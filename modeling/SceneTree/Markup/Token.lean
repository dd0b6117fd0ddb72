/-!
# Tokens

What the text of a tree is made of, and where in the text it stands.
-/

namespace SceneTree.Markup

/-- A place in a text. Lines and columns count from one, columns in characters. -/
structure Position where
  line : Nat
  column : Nat
  deriving DecidableEq, Repr

namespace Position

/-- The first place of a text. -/
def start : Position := ⟨1, 1⟩

/-- The place after a character. -/
def after (p : Position) (c : Char) : Position :=
  if c = '\n' then ⟨p.line + 1, 1⟩ else ⟨p.line, p.column + 1⟩

/-- The place after several characters. -/
def afterAll (p : Position) (text : List Char) : Position := text.foldl after p

@[simp] theorem afterAll_nil (p : Position) : p.afterAll [] = p := rfl

@[simp] theorem afterAll_cons (p : Position) (c : Char) (text : List Char) :
    p.afterAll (c :: text) = (p.after c).afterAll text := rfl

/-- A place as messages name it. -/
def toText (p : Position) : String := "line " ++ toString p.line ++ ", column " ++ toString p.column

end Position

/-- The seven signs. -/
inductive Sign where
  | openBrace | closeBrace | openBracket | closeBracket | comma | equals | colon
  deriving DecidableEq, Repr

namespace Sign

/-- The character of a sign. -/
def char : Sign → Char
  | .openBrace => '\x7b'
  | .closeBrace => '\x7d'
  | .openBracket => '['
  | .closeBracket => ']'
  | .comma => ','
  | .equals => '='
  | .colon => ':'

/-- The sign that a character is. -/
def ofChar? (c : Char) : Option Sign :=
  [openBrace, closeBrace, openBracket, closeBracket, comma, equals, colon].find? fun sign => sign.char == c

/-- A sign is read off no character but its own. -/
theorem char_of_ofChar? {c : Char} {sign : Sign} (h : ofChar? c = some sign) : sign.char = c := by
  simpa using List.find?_some h

end Sign

/-- The kinds of token. The `ending` stands after everything else. -/
inductive TokenKind where
  | newline | name | keyword | number | string | sign (s : Sign) | ending
  deriving DecidableEq, Repr

/-- A token: its kind, its text, and the place of its first character. The text of a string is what it stands for; that
of every other token is what is written. -/
structure Token where
  kind : TokenKind
  text : String
  position : Position
  deriving DecidableEq, Repr

/-- The words that stand for values. -/
def keywords : List String := ["false", "null", "true"]

end SceneTree.Markup
