import SceneTree.Proofs.Markup.Soundness

/-!
# What derives is read

Whatever derives from a rule is read by its part of the parser, in front of anything that may follow, and what is read
is what the derivation denotes. One token of lookahead is enough, since what a rule begins with tells what may follow
it.
-/

namespace SceneTree.Markup

/-- What a value begins with. -/
def BeginsValue (t : Token) : Prop :=
  t.kind = .string ∨ t.kind = .number ∨ t.kind = .keyword ∨ t.kind = .sign .openBracket ∨ t.kind = .sign .openBrace

/-- A value begins with a token that nothing else begins with but a block. -/
theorem IsValue.begins {ts : List Token} {v : Value} (h : IsValue ts v) : ∃ t ts', ts = t :: ts' ∧ BeginsValue t := by
  cases h with
  | string hk => exact ⟨_, _, rfl, .inl hk⟩
  | number hk hv => exact ⟨_, _, rfl, .inr (.inl hk)⟩
  | keyword hk => exact ⟨_, _, rfl, .inr (.inr (.inl hk))⟩
  | list ho hn hi hc => exact ⟨_, _, rfl, .inr (.inr (.inr (.inl ho)))⟩
  | map ho hn hi hc => exact ⟨_, _, rfl, .inr (.inr (.inr (.inr ho)))⟩

theorem BeginsValue.ne_newline {t : Token} (h : BeginsValue t) : t.kind ≠ .newline := by
  rcases h with hk | hk | hk | hk | hk <;> simp [hk]

theorem BeginsValue.ne_name {t : Token} (h : BeginsValue t) : t.kind ≠ .name := by
  rcases h with hk | hk | hk | hk | hk <;> simp [hk]

/-- What the parser makes of the rest of a list after an item: it ends there, or goes on after a comma. -/
def GoesOn (close : Sign) (parts : List Token → Except GrammarFault (List α × List Token)) (tokens : List Token)
    (more : List α) (rest : List Token) : Prop :=
  ∃ t left, tokens = t :: left ∧ ((t.kind = .sign close ∧ left = rest ∧ more = []) ∨
    (t.kind = .sign .comma ∧ parts (afterNewlines left) = .ok (more, rest)))

/-- An item is read, and then what goes on after it. -/
theorem plain_parseItems_cons {ts ns tokens rest : List Token} {v : Value} {vs : List Value} (h : IsValue ts v)
    (hv : ∀ rest, plain (parseValue (ts ++ rest)) = .ok (v, rest)) (hn : Newlines ns)
    (hmore : GoesOn .closeBracket (fun tokens => plain (parseItems tokens)) tokens vs rest) :
    plain (parseItems (ts ++ (ns ++ tokens))) = .ok (v :: vs, rest) := by
  obtain ⟨t, ts, rfl, hbegins⟩ := h.begins
  obtain ⟨t', left, rfl, hmore⟩ := hmore
  have ht' : afterNewlines (ns ++ t' :: left) = t' :: left := by
    rw [afterNewlines_append hn, afterNewlines_of_ne]
    rcases hmore with ⟨hk, -⟩ | ⟨hk, -⟩ <;> simp [hk]
  have ht : t.kind ≠ .sign .closeBracket := by
    rcases hbegins with hk | hk | hk | hk | hk <;> simp [hk]
  have hread := hv (ns ++ t' :: left)
  rw [List.cons_append] at hread ⊢
  rw [plain_parseItems, if_neg ht, hread]
  simp only [bind, Except.bind, ht']
  rcases hmore with ⟨hk, rfl, rfl⟩ | ⟨hk, hmore⟩
  · rw [if_neg (by simp [hk]), if_pos hk]
  · rw [if_pos hk, show plain (parseItems (afterNewlines left)) = .ok (vs, rest) from hmore]
    rfl

/-- An entry is read, and then what goes on after it. -/
theorem plain_parsePairs_cons {k c : Token} {ts ns tokens rest : List Token} {v : Value} {pairs : List (Value × Value)}
    (hk : k.kind = .name ∨ k.kind = .string) (hc : c.kind = .sign .colon)
    (hv : ∀ rest, plain (parseValue (ts ++ rest)) = .ok (v, rest)) (hn : Newlines ns)
    (hmore : GoesOn .closeBrace (fun tokens => plain (parsePairs tokens)) tokens pairs rest) :
    plain (parsePairs (k :: c :: (ts ++ (ns ++ tokens)))) = .ok ((.str k.text, v) :: pairs, rest) := by
  obtain ⟨t', left, rfl, hmore⟩ := hmore
  have ht' : afterNewlines (ns ++ t' :: left) = t' :: left := by
    rw [afterNewlines_append hn, afterNewlines_of_ne]
    rcases hmore with ⟨hk, -⟩ | ⟨hk, -⟩ <;> simp [hk]
  have hclose : k.kind ≠ .sign .closeBrace := by
    rcases hk with hk | hk <;> simp [hk]
  rw [plain_parsePairs, if_neg hclose, if_pos hk]
  simp only [if_pos hc, hv, bind, Except.bind, ht']
  rcases hmore with ⟨hk, rfl, rfl⟩ | ⟨hk, hmore⟩
  · rw [if_neg (by simp [hk]), if_pos hk]
  · rw [if_pos hk, show plain (parsePairs (afterNewlines left)) = .ok (pairs, rest) from hmore]
    rfl

/-- The items of a list may end at once. -/
theorem plain_parseItems_close {c : Token} (hc : c.kind = .sign .closeBracket) (rest : List Token) :
    plain (parseItems (c :: rest)) = .ok ([], rest) := by
  rw [plain_parseItems, if_pos hc]

/-- The entries of a map may end at once. -/
theorem plain_parsePairs_close {c : Token} (hc : c.kind = .sign .closeBrace) (rest : List Token) :
    plain (parsePairs (c :: rest)) = .ok ([], rest) := by
  rw [plain_parsePairs, if_pos hc]

/-- The items of a list begin with no newline, and neither does what closes it. -/
theorem IsItems.afterNewlines_append {ts : List Token} {vs : List Value} (h : IsItems ts vs) {ns : List Token}
    (hn : Newlines ns) {c : Token} (hc : c.kind = .sign .closeBracket) (rest : List Token) :
    afterNewlines (ns ++ (ts ++ c :: rest)) = ts ++ c :: rest := by
  rw [Markup.afterNewlines_append hn]
  cases h with
  | none => exact afterNewlines_of_ne (by simp [hc]) _
  | some hv _ _ =>
    obtain ⟨t, ts, rfl, hbegins⟩ := hv.begins
    exact afterNewlines_of_ne hbegins.ne_newline _

/-- The entries of a map begin with no newline, and neither does what closes it. -/
theorem IsEntries.afterNewlines_append {ts : List Token} {pairs : List (String × Value)} (h : IsEntries ts pairs)
    {ns : List Token} (hn : Newlines ns) {c : Token} (hc : c.kind = .sign .closeBrace) (rest : List Token) :
    afterNewlines (ns ++ (ts ++ c :: rest)) = ts ++ c :: rest := by
  rw [Markup.afterNewlines_append hn]
  cases h with
  | none => exact afterNewlines_of_ne (by simp [hc]) _
  | some hk _ _ _ _ => exact afterNewlines_of_ne (by rcases hk with hk | hk <;> simp [hk]) _

mutual

/-- What derives from the rule of values is read as the value that it denotes. -/
theorem parseValue_of_isValue {ts : List Token} {v : Value} (h : IsValue ts v) (rest : List Token) :
    plain (parseValue (ts ++ rest)) = .ok (v, rest) := by
  match h with
  | .string hk => simp [plain_parseValue, hk]
  | .number hk hv => simp [plain_parseValue, hk, hv, bind, Except.bind, pure, Except.pure]
  | .keyword hk => simp [plain_parseValue, hk]
  | .list ho hn hi hc =>
    rw [List.cons_append, List.append_assoc, List.append_assoc, List.singleton_append, plain_parseValue]
    simp only [ho]
    rw [hi.afterNewlines_append hn hc, parseItems_of_isItems hi hc]
    rfl
  | .map ho hn hi hc =>
    rw [List.cons_append, List.append_assoc, List.append_assoc, List.singleton_append, plain_parseValue]
    simp only [ho]
    rw [hi.afterNewlines_append hn hc, parsePairs_of_isEntries hi hc, ← map_ofPairs_keyed]
    rfl

/-- What derives from the rule of the items of a list is read as them, before a closing bracket. -/
theorem parseItems_of_isItems {ts : List Token} {vs : List Value} (h : IsItems ts vs) {c : Token}
    (hc : c.kind = .sign .closeBracket) (rest : List Token) :
    plain (parseItems (ts ++ c :: rest)) = .ok (vs, rest) := by
  match h with
  | .none => exact plain_parseItems_close hc rest
  | .some hv hn hr =>
    rw [List.append_assoc, List.append_assoc]
    exact plain_parseItems_cons hv (parseValue_of_isValue hv) hn (goesOn_of_isMoreItems hr hc rest)

theorem goesOn_of_isMoreItems {ts : List Token} {vs : List Value} (h : IsMoreItems ts vs) {c : Token}
    (hc : c.kind = .sign .closeBracket) (rest : List Token) :
    GoesOn .closeBracket (fun tokens => plain (parseItems tokens)) (ts ++ c :: rest) vs rest := by
  match h with
  | .none => exact ⟨c, rest, rfl, .inl ⟨hc, rfl, rfl⟩⟩
  | .comma hk hn =>
    refine ⟨_, _, List.cons_append, .inr ⟨hk, ?_⟩⟩
    rw [afterNewlines_append hn, afterNewlines_of_ne (by simp [hc])]
    exact plain_parseItems_close hc rest
  | .more hk hn hv hn' hr =>
    refine ⟨_, _, List.cons_append, .inr ⟨hk, ?_⟩⟩
    have hitems := plain_parseItems_cons hv (parseValue_of_isValue hv) hn' (goesOn_of_isMoreItems hr hc rest)
    obtain ⟨t, ts, rfl, hbegins⟩ := hv.begins
    rw [List.append_assoc, afterNewlines_append hn, List.append_assoc, List.append_assoc, List.cons_append,
      afterNewlines_of_ne hbegins.ne_newline]
    exact hitems

/-- What derives from the rule of the entries of a map is read as them, before a closing brace. -/
theorem parsePairs_of_isEntries {ts : List Token} {pairs : List (String × Value)} (h : IsEntries ts pairs) {c : Token}
    (hc : c.kind = .sign .closeBrace) (rest : List Token) :
    plain (parsePairs (ts ++ c :: rest)) = .ok (keyed pairs, rest) := by
  match h with
  | .none => exact plain_parsePairs_close hc rest
  | .some hk hcolon hv hn hr =>
    rw [List.cons_append, List.cons_append, List.append_assoc, List.append_assoc]
    exact plain_parsePairs_cons hk hcolon (parseValue_of_isValue hv) hn (goesOn_of_isMoreEntries hr hc rest)

theorem goesOn_of_isMoreEntries {ts : List Token} {pairs : List (String × Value)} (h : IsMoreEntries ts pairs)
    {c : Token} (hc : c.kind = .sign .closeBrace) (rest : List Token) :
    GoesOn .closeBrace (fun tokens => plain (parsePairs tokens)) (ts ++ c :: rest) (keyed pairs) rest := by
  match h with
  | .none => exact ⟨c, rest, rfl, .inl ⟨hc, rfl, rfl⟩⟩
  | .comma hk hn =>
    refine ⟨_, _, List.cons_append, .inr ⟨hk, ?_⟩⟩
    rw [afterNewlines_append hn, afterNewlines_of_ne (by simp [hc])]
    exact plain_parsePairs_close hc rest
  | .more hs hn hk hcolon hv hn' hr =>
    refine ⟨_, _, List.cons_append, .inr ⟨hs, ?_⟩⟩
    rw [List.append_assoc, afterNewlines_append hn, List.cons_append, List.cons_append, List.append_assoc,
      List.append_assoc, afterNewlines_of_ne (by rcases hk with hk | hk <;> simp [hk])]
    exact plain_parsePairs_cons hk hcolon (parseValue_of_isValue hv) hn' (goesOn_of_isMoreEntries hr hc rest)

end

/-- The attributes of a node begin with a name, if there are any. -/
theorem IsAttributes.head {kind : Kind} {ts : List Token} {given : List (Field × Value)}
    (h : IsAttributes kind ts given) {b : Token} (hb : b.kind ≠ .sign .equals) (rest : List Token) :
    ∃ e left, ts ++ b :: rest = e :: left ∧ e.kind ≠ .sign .equals := by
  cases h with
  | none => exact ⟨b, rest, rfl, hb⟩
  | bare hk _ _ _ => exact ⟨_, _, List.cons_append, by simp [hk]⟩
  | valued hk _ _ _ _ _ => exact ⟨_, _, List.cons_append, by simp [hk]⟩

/-- A field that comes later is not there before. -/
theorem not_isSome_lookup_of_nodup {given left : List (Field × Value)} {field : Field} {v : Value}
    (hd : ((given ++ (field, v) :: left).map (·.1)).Nodup) : ¬(given.lookup field).isSome := by
  intro hsome
  obtain ⟨pair, hpair, heq⟩ := List.lookup_isSome_iff.mp hsome
  rw [List.map_append, List.nodup_append] at hd
  exact hd.2.2 pair.1 (List.mem_map_of_mem hpair) field (by simp) (by simpa using (beq_iff_eq.mp heq).symm)

/-- What derives from the rule of attributes is read as them, before what is no name and no sign of equality. -/
theorem parseAttributes_of_isAttributes {word : String} {kind : Kind} {ts : List Token} {more : List (Field × Value)}
    (h : IsAttributes kind ts more) {b : Token} (hname : b.kind ≠ .name) (hequals : b.kind ≠ .sign .equals)
    (rest : List Token) {given : List (Field × Value)} (hd : ((given ++ more).map (·.1)).Nodup) :
    plain (parseAttributes word kind given (ts ++ b :: rest)) = .ok (given ++ more, b :: rest) := by
  induction h generalizing given with
  | none =>
    rw [List.nil_append, plain_parseAttributes, if_neg hname, List.append_nil]
  | @bare t ts field more hk hf hh hr ih =>
    obtain ⟨e, left, heq, he⟩ := hr.head hequals rest
    have hfield : (attributeField? t.text).filter kind.hasField = some field := by
      rw [hf, Option.filter_some, if_pos hh]
    rw [List.cons_append, heq, plain_parseAttributes, if_pos hk]
    simp only [hfield]
    rw [if_neg (not_isSome_lookup_of_nodup hd)]
    simp only [if_neg he]
    rw [← heq, ih (by simpa using hd)]
    simp
  | @valued t e ts ts' field v more hk hf hh he hv hr ih =>
    have hfield : (attributeField? t.text).filter kind.hasField = some field := by
      rw [hf, Option.filter_some, if_pos hh]
    rw [List.cons_append, List.cons_append, List.append_assoc, plain_parseAttributes, if_pos hk]
    simp only [hfield]
    rw [if_neg (not_isSome_lookup_of_nodup hd)]
    simp only [if_pos he, parseValue_of_isValue hv, bind, Except.bind]
    rw [ih (by simpa using hd)]
    simp

/-- Values that make a node make it at its word. -/
theorem buildAt_of_build {word : Token} {kind : Kind} {given : List (Field × Value)} {node : Node}
    (h : Node.build kind given = .ok node) : buildAt word kind given = .ok node := by
  rw [buildAt, h]

/-- What may follow a node without a block. -/
def EndsNode (t : Token) : Prop := t.kind = .newline ∨ t.kind = .sign .closeBrace ∨ t.kind = .ending

/-- What may follow an item of a block. -/
def EndsItem (t : Token) : Prop := t.kind = .newline ∨ t.kind = .sign .closeBrace

/-- What an item of a block begins with. -/
def BeginsItem (t : Token) : Prop := t.kind ≠ .newline ∧ t.kind ≠ .ending ∧ t.kind ≠ .sign .closeBrace

theorem BeginsValue.beginsItem {t : Token} (h : BeginsValue t) : BeginsItem t := by
  rcases h with hk | hk | hk | hk | hk <;> simp [BeginsItem, hk]

/-- A node begins with a name. -/
theorem IsNode.begins {ts : List Token} {tree : Tree Unit} (h : IsNode ts tree) :
    ∃ t ts', ts = t :: ts' ∧ t.kind = .name := by
  cases h with
  | bare hh =>
    cases hh with
    | header hk _ _ _ _ => exact ⟨_, _, rfl, hk⟩
  | block hh _ =>
    cases hh with
    | header hk _ _ _ _ => exact ⟨_, _, rfl, hk⟩

theorem EndsItem.endsNode {t : Token} (h : EndsItem t) : EndsNode t := h.imp_right .inl

/-- An item is read, and then the items after it. -/
theorem plain_parseBody_cons {word : String} {t b : Token} {ns ts left rest : List Token} {item : Tree Unit}
    {items : List (Tree Unit)} (hn : Newlines ns) (ht : BeginsItem t) (hb : EndsItem b)
    (hi : plainItem t (ts ++ b :: left) = .ok (item, b :: left))
    (hmore : plain (parseBody word (b :: left)) = .ok (items, rest)) :
    plain (parseBody word (ns ++ (t :: (ts ++ b :: left)))) = .ok (item :: items, rest) := by
  obtain ⟨hnewline, hending, hclose⟩ := ht
  rw [plain_parseBody, afterNewlines_append hn, afterNewlines_of_ne hnewline]
  simp only [if_neg hending, if_neg hclose, hi, bind, Except.bind]
  rw [if_pos (show b.kind = .newline ∨ b.kind = .sign .closeBrace from hb), hmore]
  rfl

/-- Newlines and a closing brace end a block. -/
theorem plain_parseBody_newlines (word : String) {c : Token} {ns : List Token} (hn : Newlines ns)
    (hc : c.kind = .sign .closeBrace) (rest : List Token) :
    plain (parseBody word (ns ++ c :: rest)) = .ok ([], rest) := by
  rw [plain_parseBody, afterNewlines_append hn, afterNewlines_of_ne (by simp [hc])]
  simp [hc]

/-- What derives from the rule of headers is read: a word of a kind, and attributes that make the node. -/
theorem IsHeader.reads {ts : List Token} {node : Node} (h : IsHeader ts node) :
    ∃ t ts' kind given, ts = t :: ts' ∧ t.kind = .name ∧
      Kind.ofWord? (String.ofList (Text.lower t.text.toList)) = some kind ∧ buildAt t kind given = .ok node ∧
      ∀ {b : Token}, b.kind ≠ .name → b.kind ≠ .sign .equals → ∀ rest,
        plain (parseAttributes t.text kind [] (ts' ++ b :: rest)) = .ok (given, b :: rest) := by
  cases h with
  | @header t ts kind given _ hk hw ha hd hbuild =>
    refine ⟨t, ts, kind, given, rfl, hk, hw, buildAt_of_build hbuild, fun hname hequals rest => ?_⟩
    have hnodup : (([] ++ given : List (Field × Value)).map (·.1)).Nodup := hd
    exact parseAttributes_of_isAttributes ha hname hequals rest hnodup

mutual

/-- What derives from the rule of nodes is read as the node, before what may end it. -/
theorem parseNode_of_isNode {ts : List Token} {tree : Tree Unit} (h : IsNode ts tree) {b : Token} (hb : EndsNode b)
    (rest : List Token) : plain (parseNode (ts ++ b :: rest)) = .ok (tree, b :: rest) := by
  match h with
  | .bare hheader =>
    obtain ⟨t, ts, kind, given, rfl, hk, hw, hbuilt, hread⟩ := hheader.reads
    have hbrace : b.kind ≠ .sign .openBrace := by rcases hb with hb | hb | hb <;> simp [hb]
    have hattributes := @hread b (by rcases hb with hb | hb | hb <;> simp [hb])
      (by rcases hb with hb | hb | hb <;> simp [hb]) rest
    rw [List.cons_append, plain_parseNode, if_pos hk]
    simp only [hw, hattributes, bind, Except.bind]
    rw [if_neg hbrace, if_pos (show b.kind = .newline ∨ b.kind = .sign .closeBrace ∨ b.kind = .ending from hb), hbuilt]
    rfl
  | .block hheader hbody =>
    obtain ⟨t, ts, kind, given, rfl, hk, hw, hbuilt, hread⟩ := hheader.reads
    obtain ⟨o, left, heq, ho, hchildren⟩ := parseBody_of_isBody hbody t.text (b :: rest)
    have hattributes := @hread o (by simp [ho]) (by simp [ho]) left
    rw [List.append_assoc, heq, List.cons_append, plain_parseNode, if_pos hk]
    simp only [hw, hattributes, bind, Except.bind]
    rw [if_pos ho, hchildren]
    simp only [hbuilt]
    rfl

/-- What derives from the rule of blocks is an opening brace and what is read as the items after it. -/
theorem parseBody_of_isBody {bs : List Token} {children : List (Tree Unit)} (h : IsBody bs children) (word : String)
    (rest : List Token) :
    ∃ o left, bs ++ rest = o :: left ∧ o.kind = .sign .openBrace ∧
      plain (parseBody word left) = .ok (children, rest) := by
  match h with
  | .block ho hn hi hc =>
    refine ⟨_, _, List.cons_append, ho, ?_⟩
    rw [List.append_assoc, List.append_assoc, List.singleton_append]
    exact parseBody_of_isChildren hi word hn hc rest

/-- What derives from the rule of the items of a block is read as them, after newlines and before a closing brace. -/
theorem parseBody_of_isChildren {ts : List Token} {children : List (Tree Unit)} (h : IsChildren ts children)
    (word : String) {ns : List Token} (hn : Newlines ns) {c : Token} (hc : c.kind = .sign .closeBrace)
    (rest : List Token) : plain (parseBody word (ns ++ (ts ++ c :: rest))) = .ok (children, rest) := by
  match h with
  | .none => exact plain_parseBody_newlines word hn hc rest
  | .some hi hr hn' =>
    obtain ⟨t, ts, rfl, ht, hitem⟩ := plainItem_of_isItem hi
    obtain ⟨b, left, heq, hb, hmore⟩ := parseBody_of_isMoreChildren hr word hn' hc rest
    rw [List.append_assoc, List.append_assoc, heq, List.cons_append]
    exact plain_parseBody_cons hn ht hb (hitem hb left) hmore

/-- What derives from the rule of items is read as the item, before what may end it. -/
theorem plainItem_of_isItem {ts : List Token} {item : Tree Unit} (h : IsItem ts item) :
    ∃ t ts', ts = t :: ts' ∧ BeginsItem t ∧
      ∀ {b : Token}, EndsItem b → ∀ rest, plainItem t (ts' ++ b :: rest) = .ok (item, b :: rest) := by
  match h with
  | .node hnode =>
    obtain ⟨t, ts, rfl, hk⟩ := hnode.begins
    refine ⟨t, ts, rfl, ⟨by simp [hk], by simp [hk], by simp [hk]⟩, fun {b} hb rest => ?_⟩
    rw [plainItem, if_pos hk]
    exact parseNode_of_isNode hnode hb.endsNode rest
  | .value hv =>
    obtain ⟨t, ts, rfl, hbegins⟩ := hv.begins
    refine ⟨t, ts, rfl, hbegins.beginsItem, fun {b} _ rest => ?_⟩
    have hread := parseValue_of_isValue hv (b :: rest)
    rw [List.cons_append] at hread
    rw [plainItem, if_neg hbegins.ne_name, hread]
    rfl

/-- What derives from the rule of further items is read as them, before newlines and a closing brace. -/
theorem parseBody_of_isMoreChildren {ts : List Token} {children : List (Tree Unit)} (h : IsMoreChildren ts children)
    (word : String) {ns : List Token} (hn : Newlines ns) {c : Token} (hc : c.kind = .sign .closeBrace)
    (rest : List Token) :
    ∃ b left, ts ++ (ns ++ c :: rest) = b :: left ∧ EndsItem b ∧
      plain (parseBody word (b :: left)) = .ok (children, rest) := by
  match h with
  | .none =>
    have hread := plain_parseBody_newlines word hn hc rest
    match ns, hn with
    | [], _ => exact ⟨c, rest, rfl, .inr hc, hread⟩
    | n :: ns, hn => exact ⟨n, ns ++ c :: rest, rfl, .inl (hn n List.mem_cons_self), hread⟩
  | @IsMoreChildren.more n ns' _ _ _ _ hk hns hi hr =>
    obtain ⟨t, ts, rfl, ht, hitem⟩ := plainItem_of_isItem hi
    obtain ⟨b, left, heq, hb, hmore⟩ := parseBody_of_isMoreChildren hr word hn hc rest
    have hnewlines : Newlines (n :: ns') := by simpa [Newlines, hk] using hns
    refine ⟨_, _, List.cons_append, .inl hk, ?_⟩
    have hread := plain_parseBody_cons hnewlines ht hb (hitem hb left) hmore
    rw [List.append_assoc, List.append_assoc, heq, List.cons_append]
    exact hread

end

/-- What derives from the rule of documents is read as its tree. -/
theorem parse_of_isDocument {tokens : List Token} {tree : Tree Unit} (h : IsDocument tokens tree) :
    parse tokens = .ok tree := by
  cases h with
  | @document ns ts ns' e _ hn ht hn' he =>
    obtain ⟨t, ts, rfl, hk⟩ := ht.begins
    obtain ⟨b, left, heq, hb⟩ : ∃ b left, ns' ++ [e] = b :: left ∧ EndsNode b := by
      match ns', hn' with
      | [], _ => exact ⟨e, [], rfl, .inr (.inr he)⟩
      | n :: ns', hn' => exact ⟨n, ns' ++ [e], rfl, .inl (hn' n List.mem_cons_self)⟩
    have hnode : plain (parseNode (t :: (ts ++ b :: left))) = .ok (tree, b :: left) := parseNode_of_isNode ht hb left
    obtain ⟨left', hread, hleft⟩ := exists_of_plain hnode
    have hend : afterNewlines left' = [e] := by
      rw [hleft, ← heq, afterNewlines_append hn', afterNewlines_of_ne (by simp [he])]
    rw [parse, afterNewlines_append hn, List.cons_append, afterNewlines_of_ne (by simp [hk]), heq]
    simp only [if_neg (show t.kind ≠ .ending by simp [hk]), hread, bind, Except.bind, hend, if_pos he]

end SceneTree.Markup
