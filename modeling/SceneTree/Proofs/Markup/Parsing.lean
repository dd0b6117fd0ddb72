import Mathlib.Data.List.TakeWhile
import SceneTree.Proofs.Attempt
import SceneTree.Proofs.Markup.Derivation

/-!
# The parser without its bounds

Every part of the parser returns what is left together with a proof that it got shorter: this is what ends the
recursion. Here each part has an equation in which only the reading and the rest stand. The proofs about the parser use
these.
-/

namespace SceneTree.Markup
variable {α β : Type} {p q : List Token → Prop}

/-- A part that was read and what is left, without the bound on its length. -/
def plain (r : Except GrammarFault (α × { rest : List Token // p rest })) : Except GrammarFault (α × List Token) :=
  r.map fun (a, rest) => (a, rest.val)

theorem plain_ok (a : α) (rest : { rest : List Token // p rest }) :
    plain (.ok (a, rest)) = .ok (a, rest.val) := rfl

/-- The bound holds of what is left. -/
theorem bound_of_plain {r : Except GrammarFault (α × { rest : List Token // p rest })} {a : α} {rest : List Token}
    (h : plain r = .ok (a, rest)) : p rest := by
  match r, h with
  | .ok (_, left), rfl => exact left.property

theorem exists_of_plain {r : Except GrammarFault (α × { rest : List Token // p rest })} {a : α} {rest : List Token}
    (h : plain r = .ok (a, rest)) : ∃ left, r = .ok (a, left) ∧ left.val = rest := by
  match r, h with
  | .ok (_, left), rfl => exact ⟨left, rfl, rfl⟩

theorem plain_bind (r : Except GrammarFault (α × { rest : List Token // p rest }))
    (f : α × { rest : List Token // p rest } → Except GrammarFault (β × { rest : List Token // q rest }))
    (g : α × List Token → Except GrammarFault (β × List Token))
    (h : ∀ a rest, plain (f (a, rest)) = g (a, rest.val)) : plain (r >>= f) = plain r >>= g := by
  rcases r with fault | ⟨a, rest⟩
  · rfl
  · exact h a rest

theorem plain_parseValue (t : Token) (rest : List Token) :
    plain (parseValue (t :: rest)) =
      match t.kind with
      | .string => .ok (.str t.text, rest)
      | .number => do return (← numberValue t.text, rest)
      | .keyword => .ok (keywordValue t.text, rest)
      | .sign .openBracket => do
        let (items, left) ← plain (parseItems (afterNewlines rest))
        return (.list items, left)
      | .sign .openBrace => do
        let (pairs, left) ← plain (parsePairs (afterNewlines rest))
        return (.map (Entries.ofPairs pairs), left)
      | _ => .error (.expected .value t.position) := by
  rw [parseValue]
  cases t.kind with
  | sign sign =>
    cases sign with
    | openBracket => exact plain_bind _ _ _ fun _ _ => rfl
    | openBrace => exact plain_bind _ _ _ fun _ _ => rfl
    | _ => rfl
  | number => cases numberValue t.text <;> rfl
  | _ => rfl

theorem plain_parseItems (t : Token) (rest : List Token) :
    plain (parseItems (t :: rest)) =
      if t.kind = .sign .closeBracket then .ok ([], rest)
      else (do
        let (item, left) ← plain (parseValue (t :: rest))
        match afterNewlines left with
        | [] => .error .exhausted
        | t' :: rest' =>
          if t'.kind = .sign .comma then do
            let (items, left') ← plain (parseItems (afterNewlines rest'))
            return (item :: items, left')
          else if t'.kind = .sign .closeBracket then .ok ([item], rest')
          else .error (.expected .listEnd t'.position)) := by
  rw [parseItems]
  split
  · rfl
  · refine plain_bind _ _ _ fun item left => ?_
    simp only
    split
    · next hl => rw [hl]; rfl
    · next t' rest' hl =>
      simp only [hl]
      split
      · exact plain_bind _ _ _ fun _ _ => rfl
      · split <;> rfl

theorem plain_parsePairs (t : Token) (rest : List Token) :
    plain (parsePairs (t :: rest)) =
      if t.kind = .sign .closeBrace then .ok ([], rest)
      else if t.kind = .name ∨ t.kind = .string then
        match rest with
        | [] => .error .exhausted
        | c :: rest =>
          if c.kind = .sign .colon then do
            let (v, left) ← plain (parseValue rest)
            match afterNewlines left with
            | [] => .error .exhausted
            | t' :: rest' =>
              if t'.kind = .sign .comma then do
                let (pairs, left') ← plain (parsePairs (afterNewlines rest'))
                return ((.str t.text, v) :: pairs, left')
              else if t'.kind = .sign .closeBrace then .ok ([(.str t.text, v)], rest')
              else .error (.expected .mapEnd t'.position)
          else .error (.expected .keyEnd c.position)
      else .error (.expected .key t.position) := by
  rw [parsePairs.eq_def]
  simp only
  split
  · rfl
  · split
    · cases rest with
      | nil => rfl
      | cons c rest =>
        simp only
        split
        · refine plain_bind _ _ _ fun v left => ?_
          simp only
          split
          · next hl => rw [hl]; rfl
          · next t' rest' hl =>
            simp only [hl]
            split
            · exact plain_bind _ _ _ fun _ _ => rfl
            · split <;> rfl
        · rfl
    · rfl

theorem plain_parseAttributes (word : String) (kind : Kind) (given : List (Field × Value)) (t : Token)
    (rest : List Token) :
    plain (parseAttributes word kind given (t :: rest)) =
      if t.kind = .name then
        match (attributeField? t.text).filter kind.hasField with
        | none => .error (.unknownAttribute t.text word t.position)
        | some field =>
          if (given.lookup field).isSome then .error (.duplicateAttribute t.text t.position)
          else
            match rest with
            | [] => .error .exhausted
            | e :: rest =>
              if e.kind = .sign .equals then do
                let (v, left) ← plain (parseValue rest)
                plain (parseAttributes word kind (given ++ [(field, v)]) left)
              else plain (parseAttributes word kind (given ++ [(field, .bool true)]) (e :: rest))
      else .ok (given, t :: rest) := by
  rw [parseAttributes.eq_def]
  simp only
  split
  · cases (attributeField? t.text).filter kind.hasField with
    | none => rfl
    | some field =>
      simp only
      split
      · rfl
      · cases rest with
        | nil => rfl
        | cons e rest =>
          simp only
          split
          · refine plain_bind _ _ _ fun v left => ?_
            simp only
            exact (plain_bind _ _ (fun r => .ok r) fun _ _ => rfl).trans (by
              cases plain (parseAttributes word kind _ left.val) <;> rfl)
          · exact (plain_bind _ _ (fun r => .ok r) fun _ _ => rfl).trans (by
              cases plain (parseAttributes word kind _ _) <;> rfl)
  · rfl

theorem plain_parseNode (t : Token) (rest : List Token) :
    plain (parseNode (t :: rest)) =
      if t.kind = .name then
        match Kind.ofWord? (String.ofList (Text.lower t.text.toList)) with
        | none => .error (.unknownKind t.text t.position)
        | some kind => do
          let (given, left) ← plain (parseAttributes t.text kind [] rest)
          match left with
          | [] => .error .exhausted
          | b :: left' =>
            if b.kind = .sign .openBrace then do
              let (children, left'') ← plain (parseBody t.text left')
              let node ← buildAt t kind given
              return (.node () node children, left'')
            else if b.kind = .newline ∨ b.kind = .sign .closeBrace ∨ b.kind = .ending then do
              let node ← buildAt t kind given
              return (.node () node [], b :: left')
            else .error (.expected (.headerEnd t.text) b.position)
      else .error (.expected .nodeKind t.position) := by
  rw [parseNode]
  split
  · cases Kind.ofWord? (String.ofList (Text.lower t.text.toList)) with
    | none => rfl
    | some kind =>
      refine plain_bind _ _ _ fun given left => ?_
      obtain ⟨left, hl⟩ := left
      cases left with
      | nil => rfl
      | cons b left' =>
        simp only
        split
        · refine plain_bind _ _ _ fun children left => ?_
          cases buildAt t kind given <;> rfl
        · split
          · cases buildAt t kind given <;> rfl
          · rfl
  · rfl

/-- The item of a block that begins with a token: a node if that is a name, else a value. -/
def plainItem (t : Token) (rest : List Token) : Except GrammarFault (Tree Unit × List Token) :=
  if t.kind = .name then plain (parseNode (t :: rest))
  else (plain (parseValue (t :: rest))).map fun (v, left) => (.literal v, left)

/-- An item takes a token at least. -/
theorem length_lt_of_plainItem {t : Token} {rest left : List Token} {item : Tree Unit}
    (h : plainItem t rest = .ok (item, left)) : left.length < (t :: rest).length := by
  rw [plainItem] at h
  split at h
  · exact bound_of_plain h
  · match hv : plain (parseValue (t :: rest)), h with
    | .ok (v, left), rfl => exact bound_of_plain hv

theorem plain_parseBody (word : String) (tokens : List Token) :
    plain (parseBody word tokens) =
      match afterNewlines tokens with
      | [] => .error .exhausted
      | t :: rest =>
        if t.kind = .ending then .error (.expected (.blockEnd word) t.position)
        else if t.kind = .sign .closeBrace then .ok ([], rest)
        else (do
          let (item, left) ← plainItem t rest
          match left with
          | [] => .error .exhausted
          | b :: left' =>
            if b.kind = .newline ∨ b.kind = .sign .closeBrace then do
              let (items, left'') ← plain (parseBody word (b :: left'))
              return (item :: items, left'')
            else .error (.expected .itemEnd b.position)) := by
  rw [parseBody]
  split
  · next hn => rw [hn]; rfl
  · next t rest hn =>
    simp only [hn]
    split
    · rfl
    · split
      · rfl
      · rw [plainItem]
        split
        · refine plain_bind _ _ _ fun item left => ?_
          obtain ⟨left, hl⟩ := left
          cases left with
          | nil => rfl
          | cons b left' =>
            simp only
            split
            · exact plain_bind _ _ _ fun _ _ => rfl
            · rfl
        · cases hv : parseValue (t :: rest) with
          | error fault => rfl
          | ok r =>
            obtain ⟨v, left, hl⟩ := r
            cases left with
            | nil => rfl
            | cons b left' =>
              simp only [plain_ok, pure, Except.pure, bind, Except.bind, Except.map]
              split
              · exact plain_bind _ _ _ fun _ _ => rfl
              · rfl

theorem afterNewlines_of_ne {t : Token} (h : t.kind ≠ .newline) (ts : List Token) :
    afterNewlines (t :: ts) = t :: ts :=
  List.dropWhile_cons_of_neg (by simpa using h)

theorem plain_parseBody_close {word : String} {c : Token} (hc : c.kind = .sign .closeBrace) (left : List Token) :
    plain (parseBody word (c :: left)) = .ok ([], left) := by
  rw [plain_parseBody, afterNewlines_of_ne (by simp [hc])]
  simp [hc]

/-- Some newlines stand before what comes after the newlines. -/
theorem exists_newlines (ts : List Token) : ∃ ns, Newlines ns ∧ ts = ns ++ afterNewlines ts := by
  refine ⟨ts.takeWhile fun t => t.kind == .newline, fun t ht => ?_, (List.takeWhile_append_dropWhile).symm⟩
  simpa using List.mem_takeWhile_imp ht

theorem afterNewlines_append {ns : List Token} (h : Newlines ns) (ts : List Token) :
    afterNewlines (ns ++ ts) = afterNewlines ts :=
  List.dropWhile_append_of_pos fun t ht => by simpa using h t ht

end SceneTree.Markup
