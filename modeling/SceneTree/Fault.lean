import SceneTree.Value.Display

/-!
# Faults

What can be wrong with a tree of nodes, with the values on it, or with a request to one of the collections, and how a
message words it.
-/

namespace SceneTree

/-- A cause of failure. -/
inductive Fault where
  /-- A node stands outside the ancestor that it needs. -/
  | requires (kind requirement : String)
  /-- An id was authored on two nodes. -/
  | idTaken (id : Value)
  /-- A node was given a child although it takes none. -/
  | cannotContain (parent child : String)
  /-- No project fills the document. -/
  | missingRoot
  /-- More than one project fills the document. -/
  | duplicateRoot
  /-- An object selects a picture that is not one of its own. -/
  | foreignPicture (object picture : Value)
  /-- A reference names nothing of its kind. -/
  | unresolved (kind : String) (name : Value)
  /-- A place for one value was given several. -/
  | tooManyValues (kind : String) (count : Nat)
  /-- A node of no particular kind stands in a tree. -/
  | unsupportedNode (title : String)
  /-- A parameter refers to a name without saying what it is the name of. -/
  | unsupportedParam (title : String)
  | unknownObjectType (type name : Value)
  | unknownRotateMethod (method name : Value)
  | unknownFunctionType (type : Value)
  /-- A node lacks an attribute that it cannot do without. -/
  | missingAttribute (title field : String)
  /-- A value that is no number was to be halved. -/
  | notDivisible (type : String)
  /-- A value that is neither a number nor a text was to be read as a number. -/
  | notReadable (type : String)
  | malformedDecimal (text : String)
  | malformedInteger (text : String)
  | tooManyDigits (count : Nat)
  /-- A value that is no text was to be taken for an address. -/
  | notAddress (type : String)
  /-- An integer lies beyond every floating-point number. -/
  | tooLarge
  /-- An indentation has more than 64 bits. -/
  | tooWide
  /-- An indentation does not fit into memory. -/
  | outOfMemory
  /-- An id of no characters was asked for. -/
  | idLength (length : Int)
  /-- Every draw for a new id spelled one that is in use. -/
  | noFreshId
  /-- A value of another type is needed. -/
  | wrongType
  /-- A value of the right type cannot be used. -/
  | badValue
  /-- No entry stands at a position. -/
  | badIndex
  /-- A map has no such key. -/
  | noKey
  /-- A value has no field of a name. -/
  | noField
  /-- A binding was to be changed in place. -/
  | frozen
  deriving Repr

namespace Fault

/-- The wording of a fault; the last six have none of their own. -/
def message : Fault → String
  | .requires kind requirement => kind ++ " requires " ++ requirement
  | .idTaken id => "id '" ++ id.toText ++ "' is already used by another node"
  | .cannotContain parent child => parent ++ " cannot contain " ++ child
  | .missingRoot => "missing root Project"
  | .duplicateRoot => "duplicate root Project"
  | .foreignPicture object picture =>
    "Object '" ++ object.toText ++ "' selects picture '" ++ picture.toText ++ "' which it does not contain"
  | .unresolved kind name => kind ++ " named '" ++ name.toText ++ "' was not found"
  | .tooManyValues kind count => kind ++ " accepts at most one child value, got " ++ toString count
  | .unsupportedNode title => "Unsupported node type '" ++ title ++ "'."
  | .unsupportedParam title => "Unsupported named parameter '" ++ title ++ "'."
  | .unknownObjectType type name =>
    "Unknown object type '" ++ type.toText ++ "' for object '" ++ name.toText ++ "'."
  | .unknownRotateMethod method name =>
    "Unknown rotate method '" ++ method.toText ++ "' for object '" ++ name.toText ++ "'."
  | .unknownFunctionType type => "Unknown function type '" ++ type.toText ++ "'."
  | .missingAttribute title field =>
    title ++ ".__init__() missing 1 required positional argument: '" ++ field ++ "'"
  | .notDivisible type => "unsupported operand type(s) for /: '" ++ type ++ "' and 'int'"
  | .notReadable type => "float() argument must be a string or a real number, not '" ++ type ++ "'"
  | .malformedDecimal text => "could not convert string to float: " ++ Text.quoted text
  | .malformedInteger text =>
    "invalid literal for int() with base 10: " ++ String.ofList ((Text.quotedChars text.toList).take 200)
  | .tooManyDigits count =>
    "Exceeds the limit (4300 digits) for integer string conversion: value has " ++ toString count ++
      " digits; use sys.set_int_max_str_digits() to increase the limit"
  | .notAddress type => "expected string or bytes-like object, got '" ++ type ++ "'"
  | .tooLarge => "integer too large for a floating-point number"
  | .tooWide => "the indentation has more than 64 bits"
  | .outOfMemory => "the indentation does not fit into memory"
  | .idLength length => "Id length must be positive, got " ++ toString length ++ "."
  | .noFreshId => "No fresh id was drawn."
  | .wrongType | .badValue | .badIndex | .noKey | .noField | .frozen => ""

/-- The faults of a tree, as opposed to those of the values on it and of requests to collections. -/
def isStructural : Fault → Bool
  | .requires .. | .idTaken _ | .cannotContain .. | .missingRoot | .duplicateRoot | .foreignPicture .. => true
  | _ => false

/-- The faults that compiling a tree reports as its own. -/
def isCompile : Fault → Bool
  | .unresolved .. | .tooManyValues .. | .unsupportedNode _ | .unsupportedParam _ => true
  | fault => fault.isStructural

end Fault

end SceneTree
