import SceneTree.Markup.Grammar

/-!
# The grammar of documents

The rules that stand above the parser, as relations: some tokens derive from a rule, and what they denote. A newline is
significant between the items of a block and nowhere else; lists and maps may end with commas and newlines.
-/

namespace SceneTree.Markup

/-- `newline*` -/
def Newlines (ts : List Token) : Prop := ∀ t ∈ ts, t.kind = .newline

/-- The map of some entries: every key stands where it came first, with the value that came last. -/
def mapOf (pairs : List (String × Value)) : Value :=
  .map ((pairs.map (·.1)).eraseDups.map fun key => (.str key, (pairs.reverse.lookup key).getD .null))

mutual

/-- `value = string | number | keyword | list | map` -/
inductive IsValue : List Token → Value → Prop where
  | string {t : Token} (hk : t.kind = .string) : IsValue [t] (.str t.text)
  | number {t : Token} {v : Value} (hk : t.kind = .number) (hv : numberValue t.text = .ok v) : IsValue [t] v
  | keyword {t : Token} (hk : t.kind = .keyword) : IsValue [t] (keywordValue t.text)
  /-- `list = "[" newline* items "]"` -/
  | list {o c : Token} {ns ts : List Token} {vs : List Value} (ho : o.kind = .sign .openBracket) (hn : Newlines ns)
      (hi : IsItems ts vs) (hc : c.kind = .sign .closeBracket) : IsValue (o :: (ns ++ (ts ++ [c]))) (.list vs)
  /-- `map = "{" newline* entries "}"` -/
  | map {o c : Token} {ns ts : List Token} {pairs : List (String × Value)} (ho : o.kind = .sign .openBrace)
      (hn : Newlines ns) (hi : IsEntries ts pairs) (hc : c.kind = .sign .closeBrace) :
      IsValue (o :: (ns ++ (ts ++ [c]))) (mapOf pairs)

/-- `items = (value newline* more)?` -/
inductive IsItems : List Token → List Value → Prop where
  | none : IsItems [] []
  | some {ts ns rest : List Token} {v : Value} {vs : List Value} (hv : IsValue ts v) (hn : Newlines ns)
      (hr : IsMoreItems rest vs) : IsItems (ts ++ (ns ++ rest)) (v :: vs)

/-- `more = ("," newline* value newline*)* ("," newline*)?` -/
inductive IsMoreItems : List Token → List Value → Prop where
  | none : IsMoreItems [] []
  | comma {c : Token} {ns : List Token} (hc : c.kind = .sign .comma) (hn : Newlines ns) : IsMoreItems (c :: ns) []
  | more {c : Token} {ns ts ns' rest : List Token} {v : Value} {vs : List Value} (hc : c.kind = .sign .comma)
      (hn : Newlines ns) (hv : IsValue ts v) (hn' : Newlines ns') (hr : IsMoreItems rest vs) :
      IsMoreItems (c :: (ns ++ (ts ++ (ns' ++ rest)))) (v :: vs)

/-- `entries = (entry newline* more)?`, where `entry = (name | string) ":" value` -/
inductive IsEntries : List Token → List (String × Value) → Prop where
  | none : IsEntries [] []
  | some {k c : Token} {ts ns rest : List Token} {v : Value} {pairs : List (String × Value)}
      (hk : k.kind = .name ∨ k.kind = .string) (hc : c.kind = .sign .colon) (hv : IsValue ts v) (hn : Newlines ns)
      (hr : IsMoreEntries rest pairs) : IsEntries (k :: c :: (ts ++ (ns ++ rest))) ((k.text, v) :: pairs)

/-- `more = ("," newline* entry newline*)* ("," newline*)?` -/
inductive IsMoreEntries : List Token → List (String × Value) → Prop where
  | none : IsMoreEntries [] []
  | comma {c : Token} {ns : List Token} (hc : c.kind = .sign .comma) (hn : Newlines ns) : IsMoreEntries (c :: ns) []
  | more {s k c : Token} {ns ts ns' rest : List Token} {v : Value} {pairs : List (String × Value)}
      (hs : s.kind = .sign .comma) (hn : Newlines ns) (hk : k.kind = .name ∨ k.kind = .string)
      (hc : c.kind = .sign .colon) (hv : IsValue ts v) (hn' : Newlines ns') (hr : IsMoreEntries rest pairs) :
      IsMoreEntries (s :: (ns ++ (k :: c :: (ts ++ (ns' ++ rest))))) ((k.text, v) :: pairs)

end

/-- `attribute*`, where `attribute = name ("=" value)?`: each names a field of the kind of the node. -/
inductive IsAttributes (kind : Kind) : List Token → List (Field × Value) → Prop where
  | none : IsAttributes kind [] []
  | bare {t : Token} {rest : List Token} {field : Field} {given : List (Field × Value)} (hk : t.kind = .name)
      (hf : attributeField? t.text = some field) (hh : kind.hasField field = true) (hr : IsAttributes kind rest given) :
      IsAttributes kind (t :: rest) ((field, .bool true) :: given)
  | valued {t e : Token} {ts rest : List Token} {field : Field} {v : Value} {given : List (Field × Value)}
      (hk : t.kind = .name) (hf : attributeField? t.text = some field) (hh : kind.hasField field = true)
      (he : e.kind = .sign .equals) (hv : IsValue ts v) (hr : IsAttributes kind rest given) :
      IsAttributes kind (t :: e :: (ts ++ rest)) ((field, v) :: given)

/-- `name attribute*`: a word of a kind and attributes, no two of one field, that make a node of the kind. -/
inductive IsHeader : List Token → Node → Prop where
  | header {t : Token} {ts : List Token} {kind : Kind} {given : List (Field × Value)} {node : Node}
      (hk : t.kind = .name) (hw : Kind.ofWord? (String.ofList (Text.lower t.text.toList)) = some kind)
      (ha : IsAttributes kind ts given) (hd : (given.map (·.1)).Nodup) (hb : Node.build kind given = .ok node) :
      IsHeader (t :: ts) node

mutual

/-- `node = header body?` -/
inductive IsNode : List Token → Tree Unit → Prop where
  | bare {ts : List Token} {node : Node} (hh : IsHeader ts node) : IsNode ts (.node () node [])
  | block {ts bs : List Token} {node : Node} {children : List (Tree Unit)} (hh : IsHeader ts node)
      (hb : IsBody bs children) : IsNode (ts ++ bs) (.node () node children)

/-- `body = "{" newline* children "}"` -/
inductive IsBody : List Token → List (Tree Unit) → Prop where
  | block {o c : Token} {ns ts : List Token} {children : List (Tree Unit)} (ho : o.kind = .sign .openBrace)
      (hn : Newlines ns) (hi : IsChildren ts children) (hc : c.kind = .sign .closeBrace) :
      IsBody (o :: (ns ++ (ts ++ [c]))) children

/-- `children = (item more newline*)?` -/
inductive IsChildren : List Token → List (Tree Unit) → Prop where
  | none : IsChildren [] []
  | some {ts rest ns : List Token} {child : Tree Unit} {children : List (Tree Unit)} (hi : IsItem ts child)
      (hr : IsMoreChildren rest children) (hn : Newlines ns) : IsChildren (ts ++ (rest ++ ns)) (child :: children)

/-- `item = node | value` -/
inductive IsItem : List Token → Tree Unit → Prop where
  | node {ts : List Token} {tree : Tree Unit} (hn : IsNode ts tree) : IsItem ts tree
  | value {ts : List Token} {v : Value} (hv : IsValue ts v) : IsItem ts (.literal v)

/-- `more = (newline+ item)*` -/
inductive IsMoreChildren : List Token → List (Tree Unit) → Prop where
  | none : IsMoreChildren [] []
  | more {n : Token} {ns ts rest : List Token} {child : Tree Unit} {children : List (Tree Unit)}
      (hn : n.kind = .newline) (hns : Newlines ns) (hi : IsItem ts child) (hr : IsMoreChildren rest children) :
      IsMoreChildren (n :: (ns ++ (ts ++ rest))) (child :: children)

end

/-- `document = newline* node newline* ending` -/
inductive IsDocument : List Token → Tree Unit → Prop where
  | document {ns ts ns' : List Token} {e : Token} {tree : Tree Unit} (hn : Newlines ns) (ht : IsNode ts tree)
      (hn' : Newlines ns') (he : e.kind = .ending) : IsDocument (ns ++ (ts ++ (ns' ++ [e]))) tree

end SceneTree.Markup
