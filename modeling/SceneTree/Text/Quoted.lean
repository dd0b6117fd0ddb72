import SceneTree.Text.Hexadecimal
import SceneTree.Text.Printable

/-!
# Quoted text

How a message shows a text so that its ends and its invisible characters can be seen: between single quotes, or between
double quotes when the text holds a single quote and no double one, with everything that cannot be shown as itself
escaped.
-/

namespace SceneTree.Text

/-- The quote that a text is shown between. -/
def quoteFor (text : List Char) : Char :=
  if text.contains '\'' && !text.contains '"' then '"' else '\''

/-- One character between quotes: the quote, the backslash and what is not printable are escaped. -/
def quotedChar (quote c : Char) : List Char :=
  if c = quote || c = '\\' then ['\\', c]
  else if c = '\n' then ['\\', 'n']
  else if c = '\r' then ['\\', 'r']
  else if c = '\t' then ['\\', 't']
  else if isPrintable c then [c]
  else if c.toNat < 0x100 then '\\' :: 'x' :: hexadecimal 2 c.toNat
  else if c.toNat < 0x10000 then '\\' :: 'u' :: hexadecimal 4 c.toNat
  else '\\' :: 'U' :: hexadecimal 8 c.toNat

/-- The characters of a text between quotes. -/
def quotedChars (text : List Char) : List Char :=
  quoteFor text :: (text.flatMap (quotedChar (quoteFor text)) ++ [quoteFor text])

/-- A text between quotes. -/
def quoted (text : String) : String := String.ofList (quotedChars text.toList)

end SceneTree.Text
