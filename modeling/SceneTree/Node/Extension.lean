/-!
# File extensions

The extension of an address is what stands after its last dot, unless nothing does or a slash comes later than the dot.
-/

namespace SceneTree

/-- The text after the last dot, if there is a dot. -/
def afterLastDot? : List Char → Option (List Char)
  | [] => none
  | c :: rest =>
    match afterLastDot? rest with
    | some found => some found
    | none => if c = '.' then some rest else none

/-- The extension of an address. -/
def extension? (address : List Char) : Option (List Char) :=
  match afterLastDot? address with
  | some found => if found.isEmpty || found.contains '/' then none else some found
  | none => none

end SceneTree
