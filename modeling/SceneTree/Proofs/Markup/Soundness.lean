import Mathlib.Data.List.Induction
import SceneTree.Proofs.Markup.Parsing

/-!
# What is read derives

Whatever a part of the parser reads derives from the rule of that part, and what the derivation denotes is what the part
returns.
-/

namespace SceneTree.Markup

/-- After a comma comes what may come at the beginning of a list. -/
theorem IsItems.after_comma {c : Token} {ns ts : List Token} {vs : List Value} (hc : c.kind = .sign .comma)
    (hn : Newlines ns) (h : IsItems ts vs) : IsMoreItems (c :: (ns ++ ts)) vs := by
  cases h with
  | none =>
    rw [List.append_nil]
    exact .comma hc hn
  | some hv hn' hr => exact .more hc hn hv hn' hr

theorem IsEntries.after_comma {c : Token} {ns ts : List Token} {pairs : List (String × Value)}
    (hc : c.kind = .sign .comma) (hn : Newlines ns) (h : IsEntries ts pairs) :
    IsMoreEntries (c :: (ns ++ ts)) pairs := by
  cases h with
  | none =>
    rw [List.append_nil]
    exact .comma hc hn
  | some hk hc' hv hn' hr => exact .more hc hn hk hc' hv hn' hr

/-- The entries of a map, their keys as values. -/
def keyed (pairs : List (String × Value)) : List (Value × Value) := pairs.map fun (key, v) => (.str key, v)

/-- Giving a value to a key of a map of texts replaces the value that it had, or adds an entry at the end. -/
theorem put_map_str (keys : List String) (f : String → Value) (key : String) (v : Value) (h : keys.Nodup) :
    Entries.put (keys.map fun k => (.str k, f k)) (.str key) v =
      (keys.map fun k => (.str k, if k = key then v else f k)) ++ if key ∈ keys then [] else [(.str key, v)] := by
  induction keys with
  | nil => simp [Entries.put]
  | cons k keys ih =>
    obtain ⟨hk, hkeys⟩ := List.nodup_cons.mp h
    by_cases heq : k = key
    · subst heq
      have hrest : (keys.map fun k' => (Value.str k', if k' = k then v else f k')) =
          keys.map fun k' => (Value.str k', f k') :=
        List.map_congr_left fun k' hk' => by
          have hne : k' ≠ k := fun he => hk (he ▸ hk')
          simp [hne]
      simp [Entries.put, Value.same, hrest]
    · have hne : ¬ key = k := fun he => heq he.symm
      simp [Entries.put, Value.same, heq, hne, ih hkeys]

/-- Every key is left once. -/
theorem nodup_eraseDups (keys : List String) : keys.eraseDups.Nodup := by
  induction hn : keys.length using Nat.strongRecOn generalizing keys with
  | ind n ih =>
    cases keys with
    | nil => simp
    | cons k keys =>
      rw [List.eraseDups_cons, List.nodup_cons]
      refine ⟨by simp [List.mem_eraseDups], ih _ ?_ _ rfl⟩
      rw [← hn]
      exact Nat.lt_succ_of_le (List.length_filter_le ..)

/-- Putting entries one after the other leaves every key where it came first, with the value that came last. -/
theorem map_ofPairs_keyed (pairs : List (String × Value)) : .map (Entries.ofPairs (keyed pairs)) = mapOf pairs := by
  rw [mapOf]
  congr 1
  induction pairs using List.reverseRecOn with
  | nil => rfl
  | append_singleton pairs pair ih =>
    obtain ⟨key, v⟩ := pair
    have hput : Entries.ofPairs (keyed (pairs ++ [(key, v)])) = (Entries.ofPairs (keyed pairs)).put (.str key) v := by
      simp [Entries.ofPairs, keyed]
    rw [hput, ih, put_map_str _ _ _ _ (nodup_eraseDups _), List.map_append, List.eraseDups_append, List.map_append]
    congr 1
    · refine List.map_congr_left fun k _ => ?_
      by_cases hk : k = key
      · simp [hk]
      · simp [hk, List.lookup_cons, beq_eq_false_iff_ne.mpr hk]
    · by_cases hk : key ∈ pairs.map (·.1)
      · rw [if_pos (List.mem_eraseDups.mpr hk)]
        simp [List.removeAll, hk]
      · rw [if_neg (mt List.mem_eraseDups.mp hk)]
        simp [List.removeAll, List.eraseDups_cons, hk]

/-- Less is left after a separator and the newlines that follow it. -/
theorem length_afterNewlines_lt {tokens ts ns left rest : List Token} {c : Token} (h : tokens = ts ++ left)
    (hleft : left = ns ++ c :: rest) : (afterNewlines rest).length < tokens.length := by
  have hle := length_afterNewlines_le rest
  rw [h, hleft, List.length_append, List.length_append, List.length_cons]
  omega

mutual

/-- What is read as a value derives from the rule of values. -/
theorem isValue_of_parseValue (tokens : List Token) {v : Value} {left : List Token}
    (h : plain (parseValue tokens) = .ok (v, left)) : ∃ ts, tokens = ts ++ left ∧ IsValue ts v := by
  match tokens with
  | [] =>
    rw [parseValue] at h
    cases h
  | t :: rest =>
    rw [plain_parseValue] at h
    match hk : t.kind with
    | .string =>
      rw [hk] at h
      cases h
      exact ⟨[t], rfl, .string hk⟩
    | .number =>
      rw [hk] at h
      obtain ⟨v', hv, h⟩ := Outcome.bind_eq_ok_iff.mp h
      cases h
      exact ⟨[t], rfl, .number hk hv⟩
    | .keyword =>
      rw [hk] at h
      cases h
      exact ⟨[t], rfl, .keyword hk⟩
    | .sign .openBracket =>
      rw [hk] at h
      obtain ⟨⟨vs, left'⟩, hvs, h⟩ := Outcome.bind_eq_ok_iff.mp h
      cases h
      obtain ⟨ns, hn, hrest⟩ := exists_newlines rest
      have hlt : (afterNewlines rest).length < (t :: rest).length :=
        Nat.lt_succ_of_le (length_afterNewlines_le rest)
      obtain ⟨ts, c, hts, hc, hi⟩ := isItems_of_parseItems (afterNewlines rest) hvs
      refine ⟨t :: (ns ++ (ts ++ [c])), ?_, .list hk hn hi hc⟩
      rw [hts] at hrest
      simp [hrest]
    | .sign .openBrace =>
      rw [hk] at h
      obtain ⟨⟨pairs, left'⟩, hpairs, h⟩ := Outcome.bind_eq_ok_iff.mp h
      cases h
      obtain ⟨ns, hn, hrest⟩ := exists_newlines rest
      have hlt : (afterNewlines rest).length < (t :: rest).length :=
        Nat.lt_succ_of_le (length_afterNewlines_le rest)
      obtain ⟨ts, c, entries, hts, hc, rfl, hi⟩ := isEntries_of_parsePairs (afterNewlines rest) hpairs
      rw [map_ofPairs_keyed]
      refine ⟨t :: (ns ++ (ts ++ [c])), ?_, .map hk hn hi hc⟩
      rw [hts] at hrest
      simp [hrest]
    | .newline | .name | .ending | .sign .closeBrace | .sign .closeBracket | .sign .comma | .sign .equals
    | .sign .colon =>
      rw [hk] at h
      cases h
termination_by (tokens.length, 0)

/-- What is read as the items of a list derives from their rule; a closing bracket ends it. -/
theorem isItems_of_parseItems (tokens : List Token) {vs : List Value} {left : List Token}
    (h : plain (parseItems tokens) = .ok (vs, left)) :
    ∃ ts c, tokens = ts ++ c :: left ∧ c.kind = .sign .closeBracket ∧ IsItems ts vs := by
  match tokens with
  | [] =>
    rw [parseItems] at h
    cases h
  | t :: rest =>
    rw [plain_parseItems] at h
    split at h
    · next hk =>
      cases h
      exact ⟨[], t, rfl, hk, .none⟩
    · obtain ⟨⟨v, left₁⟩, hv, h⟩ := Outcome.bind_eq_ok_iff.mp h
      obtain ⟨ts, hts, hvalue⟩ := isValue_of_parseValue (t :: rest) hv
      obtain ⟨ns, hn, hleft⟩ := exists_newlines left₁
      match hl : afterNewlines left₁ with
      | [] =>
        simp only [hl] at h
        cases h
      | t' :: rest' =>
        simp only [hl] at h hleft
        split at h
        · next hc =>
          obtain ⟨⟨vs', left₂⟩, hvs, h⟩ := Outcome.bind_eq_ok_iff.mp h
          cases h
          obtain ⟨ns', hn', hrest'⟩ := exists_newlines rest'
          have hlt : (afterNewlines rest').length < (t :: rest).length := length_afterNewlines_lt hts hleft
          obtain ⟨ts', c, hts', hc', hi⟩ := isItems_of_parseItems (afterNewlines rest') hvs
          refine ⟨ts ++ (ns ++ (t' :: (ns' ++ ts'))), c, ?_, hc', .some hvalue hn (hi.after_comma hc hn')⟩
          rw [hts'] at hrest'
          simp [hts, hleft, hrest']
        · split at h
          · next hc =>
            cases h
            refine ⟨ts ++ (ns ++ []), t', ?_, hc, .some hvalue hn .none⟩
            simp [hts, hleft]
          · cases h
termination_by (tokens.length, 1)

/-- What is read as the entries of a map derives from their rule; a closing brace ends it. -/
theorem isEntries_of_parsePairs (tokens : List Token) {pairs : List (Value × Value)} {left : List Token}
    (h : plain (parsePairs tokens) = .ok (pairs, left)) :
    ∃ ts c entries, tokens = ts ++ c :: left ∧ c.kind = .sign .closeBrace ∧ pairs = keyed entries ∧
      IsEntries ts entries := by
  match tokens with
  | [] =>
    rw [parsePairs.eq_def] at h
    cases h
  | t :: rest =>
    rw [plain_parsePairs] at h
    split at h
    · next hk =>
      cases h
      exact ⟨[], t, [], rfl, hk, rfl, .none⟩
    · split at h
      · next hk =>
        cases rest with
        | nil => cases h
        | cons c rest =>
          simp only at h
          split at h
          · next hcolon =>
            have hshort : rest.length < (t :: c :: rest).length := by
              simp only [List.length_cons]
              omega
            obtain ⟨⟨v, left₁⟩, hv, h⟩ := Outcome.bind_eq_ok_iff.mp h
            obtain ⟨ts, hts, hvalue⟩ := isValue_of_parseValue rest hv
            obtain ⟨ns, hn, hleft⟩ := exists_newlines left₁
            match hl : afterNewlines left₁ with
            | [] =>
              simp only [hl] at h
              cases h
            | t' :: rest' =>
              simp only [hl] at h hleft
              split at h
              · next hc =>
                obtain ⟨⟨pairs', left₂⟩, hpairs, h⟩ := Outcome.bind_eq_ok_iff.mp h
                cases h
                obtain ⟨ns', hn', hrest'⟩ := exists_newlines rest'
                have hlt : (afterNewlines rest').length < (t :: c :: rest).length :=
                  (length_afterNewlines_lt hts hleft).trans hshort
                obtain ⟨ts', c', entries, hts', hc', rfl, hi⟩ := isEntries_of_parsePairs (afterNewlines rest') hpairs
                refine ⟨t :: c :: (ts ++ (ns ++ (t' :: (ns' ++ ts')))), c', (t.text, v) :: entries, ?_, hc', rfl,
                  .some hk hcolon hvalue hn (hi.after_comma hc hn')⟩
                rw [hts'] at hrest'
                simp [hts, hleft, hrest']
              · split at h
                · next hc =>
                  cases h
                  refine ⟨t :: c :: (ts ++ (ns ++ [])), t', [(t.text, v)], ?_, hc, rfl,
                    .some hk hcolon hvalue hn .none⟩
                  simp [hts, hleft]
                · cases h
          · cases h
      · cases h
termination_by (tokens.length, 1)

end

/-- After an item and a newline comes what may come at the beginning of a block. -/
theorem IsChildren.after_newline {ts ns ts' : List Token} {b : Token} {item : Tree Unit} {children : List (Tree Unit)}
    (h : IsChildren ts' children) (hi : IsItem ts item) (hb : b.kind = .newline) (hn : Newlines ns) :
    IsChildren (ts ++ (b :: (ns ++ ts'))) (item :: children) := by
  cases h with
  | none =>
    refine .some hi .none ?_
    simpa [Newlines, hb] using hn
  | @some ts₁ rest ns₁ child children hi' hr hn' =>
    have := IsChildren.some hi (.more hb hn hi' hr) hn'
    simpa using this

/-- A value that is given on a field which has none leaves one for a field. -/
theorem nodup_given {given : List (Field × Value)} {field : Field} (hnew : ¬ (given.lookup field).isSome = true)
    (v : Value) (hd : (given.map (·.1)).Nodup) : ((given ++ [(field, v)]).map (·.1)).Nodup := by
  rw [List.map_append, List.nodup_append]
  refine ⟨hd, List.pairwise_singleton .., fun f hf f' hf' heq => hnew ?_⟩
  obtain rfl : f' = field := by simpa using hf'
  obtain ⟨pair, hpair, rfl⟩ := List.mem_map.mp hf
  exact List.lookup_isSome_iff.mpr ⟨pair, hpair, by simp [heq]⟩

/-- What is read as the attributes of a node derives from their rule, and no two of them are of one field. -/
theorem isAttributes_of_parseAttributes (word : String) (kind : Kind) (given : List (Field × Value))
    (tokens : List Token) {all : List (Field × Value)} {left : List Token}
    (h : plain (parseAttributes word kind given tokens) = .ok (all, left)) :
    ∃ ts more, tokens = ts ++ left ∧ all = given ++ more ∧ IsAttributes kind ts more ∧
      ((given.map (·.1)).Nodup → (all.map (·.1)).Nodup) := by
  match tokens with
  | [] =>
    rw [parseAttributes.eq_def] at h
    cases h
  | t :: rest =>
    rw [plain_parseAttributes] at h
    split at h
    case isFalse =>
      cases h
      exact ⟨[], [], rfl, (List.append_nil _).symm, .none, id⟩
    case isTrue hk =>
      cases hfield : (attributeField? t.text).filter kind.hasField with
      | none =>
        simp only [hfield] at h
        cases h
      | some field =>
        simp only [hfield] at h
        obtain ⟨hf, hh⟩ := Option.filter_eq_some_iff.mp hfield
        split at h
        case isTrue => cases h
        case isFalse hnew =>
          cases rest with
          | nil => cases h
          | cons e rest =>
            simp only at h
            split at h
            case isTrue he =>
              obtain ⟨⟨v, left₁⟩, hv, hmore⟩ := Outcome.bind_eq_ok_iff.mp h
              obtain ⟨ts, hts, hvalue⟩ := isValue_of_parseValue rest hv
              have hlt : left₁.length < (t :: e :: rest).length := by
                simp only [hts, List.length_cons, List.length_append]
                omega
              obtain ⟨ts', more, hts', rfl, hmore, hd⟩ :=
                isAttributes_of_parseAttributes word kind (given ++ [(field, v)]) left₁ hmore
              refine ⟨t :: e :: (ts ++ ts'), (field, v) :: more, by simp [hts, hts'], by simp,
                .valued hk hf hh he hvalue hmore, hd ∘ nodup_given hnew v⟩
            case isFalse =>
              have hlt : (e :: rest).length < (t :: e :: rest).length := Nat.lt_succ_self _
              obtain ⟨ts, more, hts, rfl, hmore, hd⟩ :=
                isAttributes_of_parseAttributes word kind (given ++ [(field, .bool true)]) (e :: rest) h
              refine ⟨t :: ts, (field, .bool true) :: more, by simp [hts], by simp, .bare hk hf hh hmore,
                hd ∘ nodup_given hnew (.bool true)⟩
termination_by tokens.length

/-- A node is made at its word if the values given on it make one. -/
theorem build_of_buildAt {word : Token} {kind : Kind} {given : List (Field × Value)} {node : Node}
    (h : buildAt word kind given = .ok node) : Node.build kind given = .ok node := by
  rw [buildAt] at h
  split at h
  · next hnode =>
    cases h
    exact hnode
  · cases h
  · cases h

mutual

/-- What is read as a node derives from the rule of nodes. -/
theorem isNode_of_parseNode (tokens : List Token) {tree : Tree Unit} {left : List Token}
    (h : plain (parseNode tokens) = .ok (tree, left)) : ∃ ts, tokens = ts ++ left ∧ IsNode ts tree := by
  match tokens with
  | [] =>
    rw [parseNode] at h
    cases h
  | t :: rest =>
    rw [plain_parseNode] at h
    split at h
    case isFalse => cases h
    case isTrue hk =>
      cases hw : Kind.ofWord? (String.ofList (Text.lower t.text.toList)) with
      | none =>
        simp only [hw] at h
        cases h
      | some kind =>
        simp only [hw] at h
        obtain ⟨⟨given, left₁⟩, hgiven, h⟩ := Outcome.bind_eq_ok_iff.mp h
        obtain ⟨ts, more, hts, heq, hmore, hd⟩ := isAttributes_of_parseAttributes t.text kind [] rest hgiven
        obtain rfl : given = more := heq
        have hheader : ∀ {node : Node}, buildAt t kind given = .ok node → IsHeader (t :: ts) node :=
          fun hbuilt => .header hk hw hmore (hd List.nodup_nil) (build_of_buildAt hbuilt)
        cases left₁ with
        | nil => cases h
        | cons b left₂ =>
          simp only at h
          split at h
          case isTrue hb =>
            obtain ⟨⟨children, left₃⟩, hchildren, h⟩ := Outcome.bind_eq_ok_iff.mp h
            obtain ⟨node, hbuilt, h⟩ := Outcome.bind_eq_ok_iff.mp h
            cases h
            have hlt : left₂.length < (t :: rest).length := by
              simp only [hts, List.length_cons, List.length_append]
              omega
            obtain ⟨ns, hn, hleft⟩ := exists_newlines left₂
            obtain ⟨bs, c, hbs, hc, hbody⟩ := isChildren_of_parseBody t.text left₂ hchildren
            refine ⟨t :: ts ++ b :: (ns ++ (bs ++ [c])), ?_, .block (hheader hbuilt) (.block hb hn hbody hc)⟩
            rw [hbs] at hleft
            simp [hts, hleft]
          case isFalse =>
            split at h
            case isTrue =>
              obtain ⟨node, hbuilt, h⟩ := Outcome.bind_eq_ok_iff.mp h
              cases h
              exact ⟨t :: ts, by rw [hts, List.cons_append], .bare (hheader hbuilt)⟩
            case isFalse => cases h
termination_by (tokens.length, 0)

/-- What is read as the items of a block derives from their rule; newlines may stand before them, and a closing brace
ends them. -/
theorem isChildren_of_parseBody (word : String) (tokens : List Token) {children : List (Tree Unit)}
    {left : List Token} (h : plain (parseBody word tokens) = .ok (children, left)) :
    ∃ ts c, afterNewlines tokens = ts ++ c :: left ∧ c.kind = .sign .closeBrace ∧ IsChildren ts children := by
  rw [plain_parseBody] at h
  match hl : afterNewlines tokens with
  | [] =>
    simp only [hl] at h
    cases h
  | t :: rest =>
    have hle : (t :: rest).length ≤ tokens.length := hl ▸ length_afterNewlines_le tokens
    simp only [hl] at h
    split at h
    case isTrue => cases h
    case isFalse =>
      split at h
      case isTrue hc =>
        cases h
        exact ⟨[], t, rfl, hc, .none⟩
      case isFalse =>
        obtain ⟨⟨item, left₁⟩, hitem, h⟩ := Outcome.bind_eq_ok_iff.mp h
        have hread : ∃ ts, t :: rest = ts ++ left₁ ∧ IsItem ts item := by
          rw [plainItem] at hitem
          split at hitem
          case isTrue =>
            obtain ⟨ts, hts, hnode⟩ := isNode_of_parseNode (t :: rest) hitem
            exact ⟨ts, hts, .node hnode⟩
          case isFalse =>
            match hv : plain (parseValue (t :: rest)), hitem with
            | .ok (v, left₂), rfl =>
              obtain ⟨ts, hts, hvalue⟩ := isValue_of_parseValue (t :: rest) hv
              exact ⟨ts, hts, .value hvalue⟩
        have hshort := length_lt_of_plainItem hitem
        obtain ⟨ts, hts, hi⟩ := hread
        cases left₁ with
        | nil => cases h
        | cons b left₂ =>
          simp only at h
          split at h
          case isFalse => cases h
          case isTrue hb =>
            obtain ⟨⟨children, left₃⟩, hchildren, h⟩ := Outcome.bind_eq_ok_iff.mp h
            cases h
            have hlt : (b :: left₂).length < tokens.length := by
              omega
            obtain ⟨ts', c, hts', hc, hmore⟩ := isChildren_of_parseBody word (b :: left₂) hchildren
            rw [hts]
            cases hb with
            | inl hb =>
              have hnl : afterNewlines (b :: left₂) = afterNewlines left₂ :=
                List.dropWhile_cons_of_pos (by simpa using hb)
              obtain ⟨ns, hn, hleft⟩ := exists_newlines left₂
              refine ⟨ts ++ (b :: (ns ++ ts')), c, ?_, hc, hmore.after_newline hi hb hn⟩
              rw [← hnl, hts'] at hleft
              simp [hleft]
            | inr hb =>
              rw [plain_parseBody_close hb] at hchildren
              cases hchildren
              refine ⟨ts, b, rfl, hb, ?_⟩
              have := IsChildren.some hi .none fun n hn => absurd hn List.not_mem_nil
              simpa using this
termination_by (tokens.length, 1)
decreasing_by
  · rcases Nat.lt_or_eq_of_le hle with hlt | heq
    · exact Prod.Lex.left _ _ hlt
    · rw [heq]
      exact Prod.Lex.right _ Nat.zero_lt_one
  · exact Prod.Lex.left _ _ hlt

end

/-- What is read as an item of a block derives from the rule of items. -/
theorem isItem_of_plainItem {t : Token} {rest left : List Token} {item : Tree Unit}
    (h : plainItem t rest = .ok (item, left)) : ∃ ts, t :: rest = ts ++ left ∧ IsItem ts item := by
  rw [plainItem] at h
  split at h
  case isTrue =>
    obtain ⟨ts, hts, hnode⟩ := isNode_of_parseNode (t :: rest) h
    exact ⟨ts, hts, .node hnode⟩
  case isFalse =>
    match hv : plain (parseValue (t :: rest)), h with
    | .ok (v, left), rfl =>
      obtain ⟨ts, hts, hvalue⟩ := isValue_of_parseValue (t :: rest) hv
      exact ⟨ts, hts, .value hvalue⟩

/-- Nothing follows an ending where there is none before the last token. -/
theorem eq_nil_of_ending {init before after : List Token} {last e : Token} (hinit : ∀ t ∈ init, t.kind ≠ .ending)
    (h : init ++ [last] = before ++ e :: after) (he : e.kind = .ending) : after = [] := by
  rcases List.eq_nil_or_concat after with hnil | ⟨more, last', rfl⟩
  · exact hnil
  · have hends : init ++ [last] = (before ++ e :: more) ++ [last'] := by simpa using h
    have hsplit : init = before ++ e :: more := (List.append_inj' hends rfl).1
    exact absurd he (hinit e (by simp [hsplit]))

/-- What is read as a document, which has no ending before its last token, derives from the rule of documents. -/
theorem isDocument_of_parse {init : List Token} {e : Token} {tree : Tree Unit} (hinit : ∀ t ∈ init, t.kind ≠ .ending)
    (h : parse (init ++ [e]) = .ok tree) : IsDocument (init ++ [e]) tree := by
  obtain ⟨ns, hn, htokens⟩ := exists_newlines (init ++ [e])
  rw [parse] at h
  match hl : afterNewlines (init ++ [e]) with
  | [] =>
    simp only [hl] at h
    cases h
  | t :: rest =>
    simp only [hl] at h htokens
    split at h
    case isTrue => cases h
    case isFalse =>
      obtain ⟨⟨tree', left, hlt⟩, hnode, h⟩ := Outcome.bind_eq_ok_iff.mp h
      obtain ⟨ts, hts, hi⟩ : ∃ ts, t :: rest = ts ++ left ∧ IsNode ts tree' :=
        isNode_of_parseNode (t :: rest) (congrArg plain hnode)
      obtain ⟨ns', hn', hleft⟩ := exists_newlines left
      match hl' : afterNewlines left with
      | [] =>
        simp only [hl'] at h
        cases h
      | e' :: left' =>
        simp only [hl'] at h hleft
        split at h
        case isFalse => cases h
        case isTrue he' =>
          cases h
          have heq : init ++ [e] = (ns ++ (ts ++ ns')) ++ e' :: left' := by
            rw [htokens, hts, hleft]
            simp
          obtain rfl := eq_nil_of_ending hinit heq he'
          have := IsDocument.document hn hi hn' he'
          rw [heq]
          simpa using this

end SceneTree.Markup
