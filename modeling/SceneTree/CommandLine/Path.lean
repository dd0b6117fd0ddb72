/-!
# Paths

A path is written with slashes. Empty parts and single dots mean nothing and are dropped; double dots stay, because what
they mean depends on what is there. Two slashes at the beginning, and no more, are kept as two.
-/

namespace SceneTree.CommandLine

/-- How many slashes a path begins with once it is tidied. -/
inductive Anchor where
  | relative | root | doubleRoot
  deriving DecidableEq, Repr

/-- A path: where it begins, and its parts, the last one first. -/
structure Path where
  anchor : Anchor
  reversed : List String
  deriving DecidableEq, Repr

namespace Path

/-- The texts between the slashes of a text. -/
def splitSlashes : List Char → List (List Char)
  | [] => [[]]
  | c :: rest =>
    match c, splitSlashes rest with
    | '/', parts => [] :: parts
    | c, part :: parts => (c :: part) :: parts
    | c, [] => [[c]]

/-- Where a text begins as a path. -/
def anchorOf : List Char → Anchor
  | '/' :: '/' :: '/' :: _ => .root
  | '/' :: '/' :: _ => .doubleRoot
  | '/' :: _ => .root
  | _ => .relative

/-- The path that a text writes. -/
def ofText (text : String) : Path :=
  let parts := (splitSlashes text.toList).map String.ofList
  ⟨anchorOf text.toList, (parts.filter fun part => part != "" && part != ".").reverse⟩

/-- The parts in order. -/
def parts (p : Path) : List String := p.reversed.reverse

/-- The text of a path. -/
def toText (p : Path) : String :=
  let parts := "/".intercalate p.parts
  match p.anchor with
  | .relative => if p.reversed.isEmpty then "." else parts
  | .root => "/" ++ parts
  | .doubleRoot => "//" ++ parts

/-- The path without its last part. -/
def parent (p : Path) : Path := { p with reversed := p.reversed.tail }

end Path

end SceneTree.CommandLine
