import SceneTree.Markup.Grammar

/-!
# Writing trees

Every tree can be written as a text: each node with the values that were given on it, between its word and the block of
its children.
-/

namespace SceneTree.Markup

/-- How the words of an attribute's name are joined: with underscores, or by capitals. -/
inductive Spelling where
  | underscores
  | capitals
  deriving DecidableEq, Repr

/-- Text in which a capital stands for every underscore and the letter after it. -/
def joined : List Char → List Char
  | '_' :: c :: rest => c.toUpper :: joined rest
  | c :: rest => c :: joined rest
  | [] => []

/-- The name of a field in a spelling. -/
def Spelling.nameOf : Spelling → Field → List Char
  | .underscores, field => field.label.toList
  | .capitals, field => joined field.label.toList

/-- What stands for a character between quotes. -/
def escape (c : Char) : List Char :=
  if c = '"' ∨ c = '\\' then ['\\', c] else if c = '\n' then ['\\', 'n'] else [c]

/-- A text between quotes. -/
def writtenText (s : String) : List Char := '"' :: (s.toList.flatMap escape ++ ['"'])

/-- An integer in base ten. -/
def writtenInteger (n : Int) : List Char := (if n < 0 then ['-'] else []) ++ Nat.toDigits 10 n.natAbs

mutual

/-- A value as markup writes it; nothing for a value that markup cannot write. -/
def written : Value → List Char
  | .null => ['n', 'u', 'l', 'l']
  | .bool true => ['t', 'r', 'u', 'e']
  | .bool false => ['f', 'a', 'l', 's', 'e']
  | .int n => writtenInteger n
  | .str s => writtenText s
  | .list items => '[' :: writtenItems items
  | .map entries => '\x7b' :: writtenEntries entries
  | _ => []

/-- The items of a list and its closing bracket. -/
def writtenItems : List Value → List Char
  | [] => [']']
  | v :: rest => written v ++ writtenMoreItems rest

/-- Further items of a list and its closing bracket. -/
def writtenMoreItems : List Value → List Char
  | [] => [']']
  | v :: rest => ',' :: ' ' :: (written v ++ writtenMoreItems rest)

/-- The entries of a map and its closing brace. -/
def writtenEntries : List (Value × Value) → List Char
  | [] => ['\x7d']
  | (k, v) :: rest => written k ++ ':' :: ' ' :: (written v ++ writtenMoreEntries rest)

/-- Further entries of a map and its closing brace. -/
def writtenMoreEntries : List (Value × Value) → List Char
  | [] => ['\x7d']
  | (k, v) :: rest => ',' :: ' ' :: (written k ++ ':' :: ' ' :: (written v ++ writtenMoreEntries rest))

end

/-- The attributes of a node, each after a blank. -/
def writtenAttributes (spelling : Spelling) : List (Field × Value) → List Char
  | [] => []
  | (field, v) :: rest => ' ' :: (spelling.nameOf field ++ '=' :: (written v ++ writtenAttributes spelling rest))

mutual

/-- A tree whose nodes are marked with what was given on them. -/
def writtenTree (spelling : Spelling) : Tree (List (Field × Value)) → List Char
  | .node given node children =>
    node.kind.name.toList ++ (writtenAttributes spelling given ++ writtenBlock spelling children)
  | .literal v => written v

/-- The block of a node, if it has children. -/
def writtenBlock (spelling : Spelling) : List (Tree (List (Field × Value))) → List Char
  | [] => []
  | child :: rest => ' ' :: '\x7b' :: '\n' :: (writtenTree spelling child ++ writtenChildren spelling rest)

/-- Further children, each on a line, and the closing brace of their block. -/
def writtenChildren (spelling : Spelling) : List (Tree (List (Field × Value))) → List Char
  | [] => ['\n', '\x7d']
  | child :: rest => '\n' :: (writtenTree spelling child ++ writtenChildren spelling rest)

end

/-- A tree as a text. -/
def print (spelling : Spelling) (tree : Tree (List (Field × Value))) : String :=
  String.ofList (writtenTree spelling tree)

mutual

/-- Whether a value is null, a truth value, an integer with not too many digits, a text, a list of such values or a map
from different texts to such values. -/
def IsWritable : Value → Prop
  | .null | .bool _ | .str _ => True
  | .int n => (Nat.toDigits 10 n.natAbs).length ≤ Numeral.digitLimit
  | .list items => AreWritable items
  | .map entries => (entries.map (·.1)).Nodup ∧ EntriesAreWritable entries
  | _ => False

/-- Whether all of some values are writable. -/
def AreWritable : List Value → Prop
  | [] => True
  | v :: rest => IsWritable v ∧ AreWritable rest

/-- Whether all of some entries have texts for keys and writable values. -/
def EntriesAreWritable : List (Value × Value) → Prop
  | [] => True
  | (.str _, v) :: rest => IsWritable v ∧ EntriesAreWritable rest
  | _ => False

end

mutual

/-- Whether a tree can be written: its nodes are of kinds that markup has words for, each is made of the values given on
it, one for a field, and these and the values among the children are writable. -/
def TreeIsWritable : Tree (List (Field × Value)) → Prop
  | .node given node children =>
    node.kind ∈ Kind.words.map (·.2) ∧ (given.map (·.1)).Nodup ∧ (∀ pair ∈ given, IsWritable pair.2) ∧
      Node.build node.kind given = .ok node ∧ TreesAreWritable children
  | .literal v => IsWritable v

/-- Whether all of some trees can be written. -/
def TreesAreWritable : List (Tree (List (Field × Value))) → Prop
  | [] => True
  | t :: rest => TreeIsWritable t ∧ TreesAreWritable rest

end

mutual

/-- A tree without its marks. -/
def unmarked : Tree (List (Field × Value)) → Tree Unit
  | .node _ node children => .node () node (allUnmarked children)
  | .literal v => .literal v

def allUnmarked : List (Tree (List (Field × Value))) → List (Tree Unit)
  | [] => []
  | t :: rest => unmarked t :: allUnmarked rest

end

end SceneTree.Markup
