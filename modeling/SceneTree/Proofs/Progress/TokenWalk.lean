import SceneTree.Proofs.Markup.Parsing
import SceneTree.Proofs.Progress.Walk

/-!
# Walking over tokens

The parts of the grammar once more, this time as routines that move along the tokens in loops and call each other. The
walk is stopped when it reads behind the last token, when it passes an ending, when a turn of a loop is completed and
nothing was read in it, and when a routine calls itself, directly or through others, and nothing was read in between.
-/

namespace SceneTree.Markup

/-- A walk over tokens. -/
abbrev TokenWalk (α : Type) := Walk (List Token) GrammarFault α

/-- The routines that read the parts of a text. -/
inductive Routine where
  | document | node | body | value | list | map | name
  deriving DecidableEq, Repr

/-- The calls of routines that are not over, each with the number of tokens that were left. -/
abbrev Calls := List (Routine × Nat)

namespace TokenWalk

variable {α : Type}

/-! ### Single tokens -/

/-- The next token, which stays. -/
def current : TokenWalk Token := fun tokens =>
  match tokens with
  | [] => .error (.breach .beyond)
  | t :: _ => .ok (t, tokens)

/-- Reads a token. -/
def advance : TokenWalk Token := fun tokens =>
  match tokens with
  | [] => .error (.breach .beyond)
  | t :: rest => if t.kind = .ending then .error (.breach .pastEnding) else .ok (t, rest)

/-- Fails at the next token. -/
def unexpected (what : Expectation) : TokenWalk α := do
  let t ← current
  Walk.fail (.expected what t.position)

/-- Whether the next token has a kind. -/
def check (kind : TokenKind) : TokenWalk Bool := do
  let t ← current
  pure (t.kind == kind)

/-- Whether the next token has one of several kinds. -/
def among (kinds : List TokenKind) : TokenWalk Bool := do
  let t ← current
  pure (kinds.contains t.kind)

/-- Reads a token if it has a kind. -/
def accept (kind : TokenKind) : TokenWalk Bool := do
  if (← check kind) then
    let _ ← advance
    pure true
  else pure false

/-- Reads a token that must have a kind. -/
def consume (kind : TokenKind) (what : Expectation) : TokenWalk Token := do
  let t ← current
  if t.kind = kind then advance else Walk.fail (.expected what t.position)

/-- Reads newlines. -/
def newlines (turns : Nat) : TokenWalk Unit :=
  Walk.loop List.length (fun _ => check .newline) (fun _ => do
    let _ ← advance
    pure ((), true)) turns ()

/-! ### Routines -/

/-- Calls a routine. -/
def called (routine : Routine) (calls : Calls) (body : Calls → TokenWalk α) : TokenWalk α := fun tokens =>
  if calls.any fun call => call.1 = routine && call.2 ≤ tokens.length then .error (.breach .circular)
  else body ((routine, tokens.length) :: calls) tokens

/-- A key of a map. -/
def key (calls : Calls) : TokenWalk String :=
  called .name calls fun _ => do
    let t ← current
    match t.kind with
    | .name | .string => do
      let _ ← advance
      pure t.text
    | _ => unexpected .key

/-- Reads the comma after an item, or the closing sign: whether another item may follow. -/
def separator (close : Sign) (what : Expectation) (turns : Nat) : TokenWalk Bool := do
  newlines turns
  if (← accept (.sign .comma)) then
    newlines turns
    pure true
  else
    let _ ← consume (.sign close) what
    pure false

/-- Whether a closing sign does not come; if it comes, it is read. -/
def unclosed (close : Sign) : TokenWalk Bool := do pure !(← accept (.sign close))

/-- Reads items until a closing sign, each of them added to those before. -/
def separated {β γ : Type} (close : Sign) (what : Expectation) (item : TokenWalk β) (add : γ → β → γ) (bound : Nat) :
    (turns : Nat) → γ → TokenWalk γ :=
  Walk.loop List.length (fun _ => unclosed close) fun items => do
    let a ← item
    let more ← separator close what bound
    pure (add items a, more)

/-- The items of a list and its closing bracket, when values are read in a given way. -/
def list (value : Calls → TokenWalk Value) (bound : Nat) (calls : Calls) : TokenWalk (List Value) :=
  called .list calls fun calls => do
    newlines bound
    separated .closeBracket .listEnd (value calls) (fun values v => values ++ [v]) bound bound []

/-- An entry of a map, when values are read in a given way. -/
def entry (value : Calls → TokenWalk Value) (calls : Calls) : TokenWalk (Value × Value) := do
  let k ← key calls
  let _ ← consume (.sign .colon) .keyEnd
  let v ← value calls
  pure (.str k, v)

/-- The entries of a map and its closing brace, when values are read in a given way. -/
def map (value : Calls → TokenWalk Value) (bound : Nat) (calls : Calls) : TokenWalk Entries :=
  called .map calls fun calls => do
    newlines bound
    separated .closeBrace .mapEnd (entry value calls) (fun entries (k, v) => Entries.put entries k v) bound bound []

/-- A value. The bound holds for the depth of calls and for the turns of every loop. -/
def value : (bound : Nat) → Calls → TokenWalk Value
  | 0, _ => Walk.stop .endless
  | bound + 1, calls =>
    called .value calls fun calls => do
      let t ← current
      match t.kind with
      | .string => do
        let _ ← advance
        pure (.str t.text)
      | .number => do
        let _ ← advance
        Walk.ofExcept (numberValue t.text)
      | .keyword => do
        let _ ← advance
        pure (keywordValue t.text)
      | .sign .openBracket => do
        let _ ← advance
        pure (.list (← list (value bound) bound calls))
      | .sign .openBrace => do
        let _ ← advance
        pure (.map (← map (value bound) bound calls))
      | _ => unexpected .value

/-- An attribute of a node, put after those already read. -/
def attributeTurn (bound : Nat) (word : String) (kind : Kind) (calls : Calls) (given : List (Field × Value)) :
    TokenWalk (List (Field × Value)) := do
  let t ← advance
  match (attributeField? t.text).filter kind.hasField with
  | none => Walk.fail (.unknownAttribute t.text word t.position)
  | some field =>
    if (given.lookup field).isSome then Walk.fail (.duplicateAttribute t.text t.position)
    else if (← accept (.sign .equals)) then pure (given ++ [(field, ← value bound calls)])
    else pure (given ++ [(field, .bool true)])

/-- The attributes of a node, put after those already read. -/
def attributes (bound : Nat) (word : String) (kind : Kind) (calls : Calls) (turns : Nat)
    (given : List (Field × Value)) : TokenWalk (List (Field × Value)) :=
  Walk.loop List.length (fun _ => check .name) (fun given => do
    pure (← attributeTurn bound word kind calls given, true)) turns given

/-- An item of a block, when nodes are read in a given way. -/
def item (node : Calls → TokenWalk (Tree Unit)) (bound : Nat) (calls : Calls) : TokenWalk (Tree Unit) := do
  if (← check .name) then node calls else pure (.literal (← value bound calls))

/-- An item of a block, put after others; or the closing brace. -/
def bodyTurn (node : Calls → TokenWalk (Tree Unit)) (bound : Nat) (word : String) (calls : Calls)
    (items : List (Tree Unit)) : TokenWalk (List (Tree Unit) × Bool) := do
  newlines bound
  if (← check .ending) then unexpected (.blockEnd word)
  else if (← accept (.sign .closeBrace)) then pure (items, false)
  else
    let tree ← item node bound calls
    if (← among [.newline, .sign .closeBrace]) then pure (items ++ [tree], true) else unexpected .itemEnd

/-- The items of a block and its closing brace, when nodes are read in a given way. -/
def body (node : Calls → TokenWalk (Tree Unit)) (bound : Nat) (word : String) (calls : Calls) :
    TokenWalk (List (Tree Unit)) :=
  called .body calls fun calls =>
    Walk.loop List.length (fun _ => pure true) (bodyTurn node bound word calls) bound []

/-- A node. The bound holds for the depth of calls and for the turns of every loop. -/
def node : (bound : Nat) → Calls → TokenWalk (Tree Unit)
  | 0, _ => Walk.stop .endless
  | bound + 1, calls =>
    called .node calls fun calls => do
      let t ← consume .name .nodeKind
      match Kind.ofWord? (String.ofList (Text.lower t.text.toList)) with
      | none => Walk.fail (.unknownKind t.text t.position)
      | some kind => do
        let given ← attributes bound t.text kind calls bound []
        if (← accept (.sign .openBrace)) then
          let children ← body (node bound) bound t.text calls
          let node ← Walk.ofExcept (buildAt t kind given)
          pure (.node () node children)
        else if (← among [.newline, .sign .closeBrace, .ending]) then
          let node ← Walk.ofExcept (buildAt t kind given)
          pure (.node () node [])
        else unexpected (.headerEnd t.text)

/-- A document. -/
def document (bound : Nat) : TokenWalk (Tree Unit) :=
  called .document [] fun calls => do
    newlines bound
    if (← check .ending) then Walk.fail .noRoot
    else
      let root ← node bound calls
      newlines bound
      if (← check .ending) then pure root else unexpected .noSecondRoot

end TokenWalk

end SceneTree.Markup
