import SceneTree.Markup.AttributeName
import SceneTree.Markup.Scan
import SceneTree.Node.Build

/-!
# From tokens to a tree

    document = newline* node newline* ending
    node     = name attribute* body?
    attribute = name ("=" value)?
    body     = "{" newline* (item (newline+ item)* newline*)? "}"
    item     = node | value
    value    = string | number | keyword | list | map
    list     = "[" newline* (value newline* ("," newline* value newline*)* ("," newline*)?)? "]"
    map      = "{" newline* (entry newline* ("," newline* entry newline*)* ("," newline*)?)? "}"
    entry    = (name | string) ":" value

Each part reads the tokens that belong to it and leaves the rest, which is shorter than what it was given: this is what
ends the recursion. No part goes past the ending.
-/

namespace SceneTree.Markup

/-- What would have continued a text. -/
inductive Expectation where
  | noSecondRoot
  | nodeKind
  | headerEnd (word : String)
  | blockEnd (word : String)
  | itemEnd
  | value
  | listEnd
  | keyEnd
  | mapEnd
  | key
  deriving DecidableEq, Repr

/-- The wording of an expectation that was not met. -/
def Expectation.message : Expectation → String
  | .noSecondRoot => "Expected a single root node."
  | .nodeKind => "Expected a node kind."
  | .headerEnd word => "Unexpected token in '" ++ word ++ "' header."
  | .blockEnd word => "Unterminated block for '" ++ word ++ "'. Expected '\x7d'."
  | .itemEnd => "Expected a newline or '\x7d' after block item."
  | .value => "Expected a value."
  | .listEnd => "Expected ',' or ']' in list."
  | .keyEnd => "Expected ':' after map key."
  | .mapEnd => "Expected ',' or '\x7d' in map."
  | .key => "Expected name."

/-- Why tokens make up no tree. -/
inductive GrammarFault where
  | noRoot
  | expected (what : Expectation) (position : Position)
  | unknownKind (word : String) (position : Position)
  | unknownAttribute (name word : String) (position : Position)
  | duplicateAttribute (name : String) (position : Position)
  /-- The values given on a node do not make a node of its kind. -/
  | invalidNode (word : String) (position : Position) (fault : Fault)
  /-- An integer on a node is too large to compute with. -/
  | tooLarge
  /-- The digits of a number cannot be read. -/
  | unreadableNumber
  /-- The tokens stop without an ending. -/
  | exhausted
  deriving Repr

/-- The wording of a fault; the last three have none of their own. -/
def GrammarFault.message : GrammarFault → String
  | .noRoot => "Expected a root node."
  | .expected what position => what.message ++ " (" ++ position.toText ++ ")"
  | .unknownKind word position => "Unknown node kind '" ++ word ++ "' (" ++ position.toText ++ ")"
  | .unknownAttribute name word position =>
    "Unknown attribute '" ++ name ++ "' for '" ++ word ++ "' (" ++ position.toText ++ ")"
  | .duplicateAttribute name position => "Duplicate attribute '" ++ name ++ "' (" ++ position.toText ++ ")"
  | .invalidNode word position fault =>
    "Invalid '" ++ word ++ "' node at " ++ position.toText ++ ": " ++ fault.message
  | .tooLarge | .unreadableNumber | .exhausted => ""

/-- What is left of some tokens after at least one of them. -/
abbrev Rest (tokens : List Token) := { rest : List Token // rest.length < tokens.length }

/-- A part that was read, and what is left. -/
abbrev Parsed (α : Type) (tokens : List Token) := Except GrammarFault (α × Rest tokens)

/-- The tokens after the newlines at the beginning. -/
def afterNewlines (tokens : List Token) : List Token := tokens.dropWhile fun t => t.kind == .newline

theorem length_afterNewlines_le (tokens : List Token) : (afterNewlines tokens).length ≤ tokens.length :=
  (List.dropWhile_sublist _).length_le

/-- The value of a number: with a point it is a floating-point number, without one an integer. -/
def numberValue (text : String) : Except GrammarFault Value :=
  if text.toList.contains '.' then
    match Numeral.readDecimal? text.toList with
    | some (.number x) => .ok (.float x)
    | _ => .error .unreadableNumber
  else
    match Numeral.readInteger text.toList with
    | .ok n => .ok (.int n)
    | .error _ => .error .unreadableNumber

/-- The value of a keyword. -/
def keywordValue (text : String) : Value :=
  if text = "true" then .bool true else if text = "false" then .bool false else .null

mutual

/-- A value. -/
def parseValue (tokens : List Token) : Parsed Value tokens :=
  match tokens with
  | [] => .error .exhausted
  | t :: rest =>
    match t.kind with
    | .string => .ok (.str t.text, ⟨rest, by simp⟩)
    | .number => do return (← numberValue t.text, ⟨rest, by simp⟩)
    | .keyword => .ok (keywordValue t.text, ⟨rest, by simp⟩)
    | .sign .openBracket => do
      let (items, ⟨rest', h⟩) ← parseItems (afterNewlines rest)
      return (.list items, ⟨rest', by have := length_afterNewlines_le rest; simp only [List.length_cons]; omega⟩)
    | .sign .openBrace => do
      let (pairs, ⟨rest', h⟩) ← parsePairs (afterNewlines rest)
      return (.map (Entries.ofPairs pairs),
        ⟨rest', by have := length_afterNewlines_le rest; simp only [List.length_cons]; omega⟩)
    | _ => .error (.expected .value t.position)
termination_by (tokens.length, 0)
decreasing_by
  all_goals
    have := length_afterNewlines_le rest
    simp only [List.length_cons]
    apply Prod.Lex.left
    omega

/-- The items of a list and its closing bracket. -/
def parseItems (tokens : List Token) : Parsed (List Value) tokens :=
  match tokens with
  | [] => .error .exhausted
  | t :: rest =>
    if t.kind = .sign .closeBracket then .ok ([], ⟨rest, by simp⟩)
    else do
      let (item, ⟨left, h⟩) ← parseValue (t :: rest)
      match hl : afterNewlines left with
      | [] => .error .exhausted
      | t' :: rest' =>
        have hr : rest'.length < left.length := by
          have := length_afterNewlines_le left
          simp only [hl, List.length_cons] at this
          omega
        if t'.kind = .sign .comma then do
          let (items, ⟨left', h'⟩) ← parseItems (afterNewlines rest')
          return (item :: items, ⟨left', by have := length_afterNewlines_le rest'; omega⟩)
        else if t'.kind = .sign .closeBracket then .ok ([item], ⟨rest', by omega⟩)
        else .error (.expected .listEnd t'.position)
termination_by (tokens.length, 1)
decreasing_by
  · apply Prod.Lex.right
    omega
  · have := length_afterNewlines_le rest'
    apply Prod.Lex.left
    omega

/-- The entries of a map and its closing brace. -/
def parsePairs (tokens : List Token) : Parsed (List (Value × Value)) tokens :=
  match tokens with
  | [] => .error .exhausted
  | t :: rest =>
    if t.kind = .sign .closeBrace then .ok ([], ⟨rest, by simp⟩)
    else if t.kind = .name ∨ t.kind = .string then
      match rest with
      | [] => .error .exhausted
      | c :: rest =>
        if c.kind = .sign .colon then do
          let (v, ⟨left, h⟩) ← parseValue rest
          match hl : afterNewlines left with
          | [] => .error .exhausted
          | t' :: rest' =>
            have hr : rest'.length < left.length := by
              have := length_afterNewlines_le left
              simp only [hl, List.length_cons] at this
              omega
            if t'.kind = .sign .comma then do
              let (pairs, ⟨left', h'⟩) ← parsePairs (afterNewlines rest')
              return ((.str t.text, v) :: pairs,
                ⟨left', by have := length_afterNewlines_le rest'; simp only [List.length_cons]; omega⟩)
            else if t'.kind = .sign .closeBrace then
              .ok ([(.str t.text, v)], ⟨rest', by simp only [List.length_cons]; omega⟩)
            else .error (.expected .mapEnd t'.position)
        else .error (.expected .keyEnd c.position)
    else .error (.expected .key t.position)
termination_by (tokens.length, 1)
decreasing_by
  · apply Prod.Lex.left
    simp only [List.length_cons]
    omega
  · have := length_afterNewlines_le rest'
    apply Prod.Lex.left
    simp only [List.length_cons]
    omega

end

/-- The attributes of a node, put after those already read, and what is left: perhaps all. -/
def parseAttributes (word : String) (kind : Kind) (given : List (Field × Value)) (tokens : List Token) :
    Except GrammarFault (List (Field × Value) × { rest : List Token // rest.length ≤ tokens.length }) :=
  match tokens with
  | [] => .error .exhausted
  | t :: rest =>
    if t.kind = .name then
      match (attributeField? t.text).filter kind.hasField with
      | none => .error (.unknownAttribute t.text word t.position)
      | some field =>
        if (given.lookup field).isSome then .error (.duplicateAttribute t.text t.position)
        else
          match rest with
          | [] => .error .exhausted
          | e :: rest =>
            if e.kind = .sign .equals then do
              let (v, ⟨left, h⟩) ← parseValue rest
              let (given, ⟨left', h'⟩) ← parseAttributes word kind (given ++ [(field, v)]) left
              return (given, ⟨left', by simp only [List.length_cons]; omega⟩)
            else do
              let (given, ⟨left', h'⟩) ← parseAttributes word kind (given ++ [(field, .bool true)]) (e :: rest)
              return (given, ⟨left', by simp only [List.length_cons] at h' ⊢; omega⟩)
    else .ok (given, ⟨t :: rest, by simp⟩)
termination_by tokens.length
decreasing_by
  · simp only [List.length_cons]
    omega
  · simp only [List.length_cons]
    omega

/-- The node of a kind with what was given on it; values that do not make one are reported at its word. -/
def buildAt (word : Token) (kind : Kind) (given : List (Field × Value)) : Except GrammarFault Node :=
  match Node.build kind given with
  | .ok node => .ok node
  | .error .tooLarge => .error .tooLarge
  | .error fault => .error (.invalidNode word.text word.position fault)

mutual

/-- A node. -/
def parseNode (tokens : List Token) : Parsed (Tree Unit) tokens :=
  match tokens with
  | [] => .error .exhausted
  | t :: rest =>
    if t.kind = .name then
      match Kind.ofWord? (String.ofList (Text.lower t.text.toList)) with
      | none => .error (.unknownKind t.text t.position)
      | some kind => do
        let (given, ⟨left, h⟩) ← parseAttributes t.text kind [] rest
        match hl : left with
        | [] => .error .exhausted
        | b :: left' =>
          have hb : left'.length < rest.length := by
            rw [hl, List.length_cons] at h
            omega
          if b.kind = .sign .openBrace then do
            let (children, ⟨left'', h'⟩) ← parseBody t.text left'
            let node ← buildAt t kind given
            return (.node () node children, ⟨left'', by simp only [List.length_cons]; omega⟩)
          else if b.kind = .newline ∨ b.kind = .sign .closeBrace ∨ b.kind = .ending then do
            let node ← buildAt t kind given
            return (.node () node [], ⟨b :: left', by simp only [List.length_cons]; omega⟩)
          else .error (.expected (.headerEnd t.text) b.position)
    else .error (.expected .nodeKind t.position)
termination_by (tokens.length, 0)
decreasing_by
  apply Prod.Lex.left
  simp only [List.length_cons]
  omega

/-- The items of a block and its closing brace. -/
def parseBody (word : String) (tokens : List Token) : Parsed (List (Tree Unit)) tokens :=
  match hn : afterNewlines tokens with
  | [] => .error .exhausted
  | t :: rest =>
    have ht : (t :: rest).length ≤ tokens.length := hn ▸ length_afterNewlines_le tokens
    if t.kind = .ending then .error (.expected (.blockEnd word) t.position)
    else if t.kind = .sign .closeBrace then .ok ([], ⟨rest, by simp only [List.length_cons] at ht; omega⟩)
    else do
      let (item, ⟨left, h⟩) ←
        if t.kind = .name then parseNode (t :: rest)
        else do
          let (v, left) ← parseValue (t :: rest)
          pure (.literal v, left)
      match hl : left with
      | [] => .error .exhausted
      | b :: left' =>
        have hb : (b :: left').length < tokens.length := by
          rw [hl] at h
          omega
        if b.kind = .newline ∨ b.kind = .sign .closeBrace then do
          let (items, ⟨left'', h'⟩) ← parseBody word (b :: left')
          return (item :: items, ⟨left'', by omega⟩)
        else .error (.expected .itemEnd b.position)
termination_by (tokens.length, 1)
decreasing_by
  · exact Prod.Lex.left _ _ hb
  · rcases Nat.lt_or_eq_of_le ht with hlt | heq
    · exact Prod.Lex.left _ _ hlt
    · rw [heq]
      exact Prod.Lex.right _ (by omega)

end

/-- The tree of a document. -/
def parse (tokens : List Token) : Except GrammarFault (Tree Unit) :=
  match afterNewlines tokens with
  | [] => .error .exhausted
  | t :: rest =>
    if t.kind = .ending then .error .noRoot
    else do
      let (tree, ⟨left, _⟩) ← parseNode (t :: rest)
      match afterNewlines left with
      | [] => .error .exhausted
      | e :: _ => if e.kind = .ending then .ok tree else .error (.expected .noSecondRoot e.position)

/-- Why a text describes no tree. -/
inductive MarkupFault where
  | scan (fault : ScanFault)
  | grammar (fault : GrammarFault)
  deriving Repr

/-- The tree that a text describes. -/
def read (text : String) : Except MarkupFault (Tree Unit) :=
  match scan text with
  | .error fault => .error (.scan fault)
  | .ok tokens => (parse tokens).mapError .grammar

end SceneTree.Markup
