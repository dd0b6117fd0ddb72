import SceneTree.Proofs.Progress.Values

/-!
# Walking over nodes

The routines for nodes and blocks come to what the parser makes of the tokens, when their bound exceeds the number of
tokens.
-/

namespace SceneTree.Markup.TokenWalk

variable {calls : Calls} {n bound turns : Nat} {t : Token} {tokens rest left : List Token}

theorem endsOnce_of_parseAttributes {word : String} {kind : Kind} {given more : List (Field × Value)}
    (h : EndsOnce tokens) (ha : plain (parseAttributes word kind given tokens) = .ok (more, left)) :
    EndsOnce left ∧ left.length ≤ tokens.length := by
  obtain ⟨ts, _, hts, -, hmore, -⟩ := isAttributes_of_parseAttributes word kind given tokens ha
  exact ⟨(hts ▸ h).of_append hmore.unfinished, bound_of_plain ha⟩

theorem endsOnce_of_plainItem {item : Tree Unit} (h : EndsOnce (t :: rest)) (hi : plainItem t rest = .ok (item, left)) :
    EndsOnce left ∧ left.length < (t :: rest).length := by
  obtain ⟨ts, hts, hitem⟩ := isItem_of_plainItem hi
  exact ⟨(hts ▸ h).of_append hitem.unfinished, length_lt_of_plainItem hi⟩

theorem endsOnce_of_parseNode {tree : Tree Unit} (h : EndsOnce tokens)
    (hn : plain (parseNode tokens) = .ok (tree, left)) :
    EndsOnce left := by
  obtain ⟨ts, hts, hnode⟩ := isNode_of_parseNode tokens hn
  exact (hts ▸ h).of_append hnode.unfinished

variable {word : String} {owner : Kind} {given more : List (Field × Value)}

theorem attributes_of_turn (hk : t.kind = .name)
    (h : attributeTurn bound word owner calls given (t :: rest) = .ok (more, left))
    (hlt : left.length < (t :: rest).length) :
    attributes bound word owner calls (turns + 1) given (t :: rest) =
      attributes bound word owner calls turns more left :=
  Walk.loop_of_more (check_of_eq hk) (Walk.bind_of_ok h) hlt

theorem attributes_of_error {halt : Halt GrammarFault} (hk : t.kind = .name)
    (h : attributeTurn bound word owner calls given (t :: rest) = .error halt) :
    attributes bound word owner calls (turns + 1) given (t :: rest) = .error halt :=
  Walk.loop_of_error (check_of_eq hk) (Walk.bind_of_error h)

/-- What follows the name of an attribute that may be given. -/
theorem attributeTurn_eq {field : Field} (hne : t.kind ≠ .ending)
    (hfield : (attributeField? t.text).filter owner.hasField = some field)
    (hgiven : ¬ (given.lookup field).isSome = true) :
    attributeTurn bound word owner calls given (t :: rest) =
      (do
        if (← accept (.sign .equals)) then pure (given ++ [(field, ← TokenWalk.value bound calls)])
        else pure (given ++ [(field, .bool true)]) : TokenWalk (List (Field × Value))) rest := by
  rw [attributeTurn, Walk.bind_of_ok (advance_of_ne hne), hfield]
  dsimp only
  rw [if_neg hgiven]

/-- The attributes of a node are read as the parser reads them. -/
theorem attributes_eq (given : List (Field × Value)) (hc : Above calls n) (h : EndsOnce tokens)
    (hn : tokens.length ≤ n) (hb : n < bound) (hlt : tokens.length < turns) :
    attributes bound word owner calls turns given tokens =
      (plain (parseAttributes word owner given tokens)).mapError .fault := by
  induction turns generalizing tokens given with
  | zero => exact absurd hlt (Nat.not_lt_zero _)
  | succ turns ih =>
    obtain ⟨t, rest, rfl⟩ := h.exists_cons
    rw [plain_parseAttributes]
    by_cases hk : t.kind = .name
    case neg =>
      rw [if_neg hk]
      exact Walk.loop_of_not (check_of_ne hk)
    case pos =>
      have hne : t.kind ≠ .ending := ne_of_eq_of_ne hk (by decide)
      have hrest := h.tail hne
      rw [if_pos hk]
      cases hfield : (attributeField? t.text).filter owner.hasField with
      | none =>
        refine attributes_of_error hk ?_
        rw [attributeTurn, Walk.bind_of_ok (advance_of_ne hne), hfield]
        rfl
      | some field =>
        dsimp only
        by_cases hgiven : (given.lookup field).isSome = true
        · rw [if_pos hgiven]
          refine attributes_of_error hk ?_
          rw [attributeTurn, Walk.bind_of_ok (advance_of_ne hne), hfield]
          dsimp only
          rw [if_pos hgiven]
          rfl
        rw [if_neg hgiven]
        obtain ⟨e, rest, rfl⟩ := hrest.exists_cons
        have hturn : attributeTurn bound word owner calls given (t :: e :: rest) = _ :=
          attributeTurn_eq hne hfield hgiven
        dsimp only
        simp only [List.length_cons] at hn hlt
        by_cases he : e.kind = .sign .equals
        · rw [if_pos he]
          rw [Walk.bind_of_ok (accept_of_eq he (sign_ne_ending _)), if_pos rfl] at hturn
          have hended := hrest.tail (ne_of_eq_of_ne he (sign_ne_ending _))
          have hvalue : TokenWalk.value bound calls rest = (plain (parseValue rest)).mapError .fault :=
            value_eq hended (by omega) ((hc.mono (by omega)).clear .value)
          cases hv : plain (parseValue rest) with
          | error fault =>
            rw [hv] at hvalue
            exact attributes_of_error hk (hturn.trans (Walk.bind_of_error hvalue))
          | ok read =>
            obtain ⟨v, left⟩ := read
            rw [hv] at hvalue
            obtain ⟨hleft, hshort⟩ := endsOnce_of_parseValue hended hv
            refine (attributes_of_turn hk (hturn.trans (Walk.bind_of_ok hvalue)) ?_).trans
              (ih _ hleft (by omega) (by omega))
            simp only [List.length_cons]
            omega
        · rw [if_neg he]
          rw [Walk.bind_of_ok (accept_of_ne he), if_neg Bool.false_ne_true] at hturn
          exact (attributes_of_turn hk hturn (Nat.lt_succ_self _)).trans
            (ih _ hrest (by simp only [List.length_cons]; omega) (by simp only [List.length_cons]; omega))

variable {node : Calls → TokenWalk (Tree Unit)}

/-- An item of a block is read as the parser reads it. -/
theorem item_eq (hn : Agrees .node bound node fun tokens => plain (parseNode tokens)) (hc : Above calls n)
    (h : EndsOnce (t :: rest)) (hle : (t :: rest).length ≤ n) (hb : n < bound) :
    item node bound ((.body, n) :: calls) (t :: rest) = (plainItem t rest).mapError .fault := by
  rw [item, plainItem]
  by_cases hk : t.kind = .name
  · rw [Walk.bind_of_ok (check_of_eq hk), if_pos rfl, if_pos hk]
    exact hn _ _ h (Nat.lt_of_le_of_lt hle hb) (hc.clear_cons hle (by decide))
  · rw [Walk.bind_of_ok (check_of_ne hk), if_neg Bool.false_ne_true, if_neg hk]
    have hvalue : TokenWalk.value bound ((.body, n) :: calls) (t :: rest) =
        (plain (parseValue (t :: rest))).mapError .fault :=
      value_eq h (Nat.lt_of_le_of_lt hle hb) (hc.clear_cons hle (by decide))
    cases hv : plain (parseValue (t :: rest)) with
    | error =>
      rw [hv] at hvalue
      exact Walk.bind_of_error hvalue
    | ok =>
      rw [hv] at hvalue
      exact Walk.bind_of_ok hvalue

theorem among_of_mem {kinds : List TokenKind} (h : t.kind ∈ kinds) :
    among kinds (t :: rest) = .ok (true, t :: rest) := by
  rw [among, Walk.bind_of_ok rfl, List.contains_iff_mem.mpr h]
  rfl

theorem among_of_not_mem {kinds : List TokenKind} (h : t.kind ∉ kinds) :
    among kinds (t :: rest) = .ok (false, t :: rest) := by
  rw [among, Walk.bind_of_ok rfl, Bool.eq_false_iff.mpr fun hc => h (List.contains_iff_mem.mp hc)]
  rfl

/-- What follows the newlines before an item of a block. -/
theorem bodyTurn_eq {items : List (Tree Unit)} (hread : newlines bound tokens = .ok ((), t :: rest))
    (hending : t.kind ≠ .ending) (hclose : t.kind ≠ .sign .closeBrace) :
    bodyTurn node bound word calls items tokens =
      (do
        let tree ← item node bound calls
        if (← among [.newline, .sign .closeBrace]) then pure (items ++ [tree], true)
        else unexpected .itemEnd : TokenWalk (List (Tree Unit) × Bool)) (t :: rest) := by
  rw [bodyTurn, Walk.bind_of_ok hread, Walk.bind_of_ok (check_of_ne hending), if_neg Bool.false_ne_true,
    Walk.bind_of_ok (accept_of_ne hclose)]
  rfl

/-- The items of a block are read in turns, as the parser reads them. -/
theorem bodyLoop_eq (hn : Agrees .node bound node fun tokens => plain (parseNode tokens)) (hc : Above calls n)
    (items : List (Tree Unit)) (h : EndsOnce tokens) (hle : tokens.length ≤ n) (hb : n < bound)
    (hlt : tokens.length < turns) :
    Walk.loop List.length (fun _ => pure true) (bodyTurn node bound word ((.body, n) :: calls)) turns items tokens =
      ((plain (parseBody word tokens)).map fun (more, left) => (items ++ more, left)).mapError .fault := by
  induction turns generalizing tokens items with
  | zero => exact absurd hlt (Nat.not_lt_zero _)
  | succ turns ih =>
    have hread : newlines bound tokens = .ok ((), afterNewlines tokens) :=
      newlines_eq h (Nat.lt_of_le_of_lt hle hb)
    have hshort := length_afterNewlines_le tokens
    have hended := h.afterNewlines
    rw [plain_parseBody]
    obtain ⟨t, rest, hl⟩ := hended.exists_cons
    rw [hl] at hread hshort hended ⊢
    dsimp only
    by_cases hending : t.kind = .ending
    · rw [if_pos hending]
      refine Walk.loop_of_error rfl ?_
      rw [bodyTurn, Walk.bind_of_ok hread, Walk.bind_of_ok (check_of_eq hending)]
      rfl
    rw [if_neg hending]
    by_cases hclose : t.kind = .sign .closeBrace
    · have hturn : bodyTurn node bound word ((.body, n) :: calls) items tokens = .ok ((items, false), rest) := by
        rw [bodyTurn, Walk.bind_of_ok hread, Walk.bind_of_ok (check_of_ne hending), if_neg Bool.false_ne_true,
          Walk.bind_of_ok (accept_of_eq hclose (sign_ne_ending _))]
        rfl
      rw [if_pos hclose]
      refine (Walk.loop_of_last rfl hturn hshort).trans ?_
      exact congrArg (fun items => Except.ok (items, rest)) (List.append_nil items).symm
    rw [if_neg hclose]
    have hitem := item_eq hn hc hended (Nat.le_trans hshort hle) hb
    have hturn : bodyTurn node bound word ((.body, n) :: calls) items tokens = _ := bodyTurn_eq hread hending hclose
    cases hi : plainItem t rest with
    | error fault =>
      rw [hi] at hitem
      exact Walk.loop_of_error rfl (hturn.trans (Walk.bind_of_error hitem))
    | ok read =>
      obtain ⟨tree, left⟩ := read
      rw [hi] at hitem
      obtain ⟨hleft, hlen⟩ := endsOnce_of_plainItem hended hi
      replace hturn := hturn.trans (Walk.bind_of_ok hitem)
      obtain ⟨b, left, rfl⟩ := hleft.exists_cons
      dsimp only [bind, Except.bind]
      by_cases hnext : b.kind = .newline ∨ b.kind = .sign .closeBrace
      · have hmem : b.kind ∈ [TokenKind.newline, .sign .closeBrace] := by simpa using hnext
        rw [Walk.bind_of_ok (among_of_mem hmem)] at hturn
        rw [if_pos hnext]
        refine (Walk.loop_of_more rfl hturn (Nat.lt_of_lt_of_le hlen hshort)).trans
          ((ih _ hleft (by omega) (by omega)).trans ?_)
        cases plain (parseBody word (b :: left)) with
        | error => rfl
        | ok read => exact congrArg (fun items => Except.ok (items, read.2)) (List.append_assoc items [tree] read.1)
      · have hmem : b.kind ∉ [TokenKind.newline, .sign .closeBrace] := by simpa using hnext
        rw [Walk.bind_of_ok (among_of_not_mem hmem)] at hturn
        rw [if_neg hnext]
        exact Walk.loop_of_error rfl hturn

theorem body_eq (hn : Agrees .node bound node fun tokens => plain (parseNode tokens)) (h : EndsOnce tokens)
    (hlt : tokens.length < bound) (hc : Above calls tokens.length) :
    body node bound word calls tokens = (plain (parseBody word tokens)).mapError .fault := by
  rw [body, called_eq (hc.clear .body)]
  refine (bodyLoop_eq hn hc [] h (Nat.le_refl _) hlt hlt).trans ?_
  cases plain (parseBody word tokens) <;> rfl

/-- Nodes are read as the parser reads them. -/
theorem agrees_node (bound : Nat) :
    Agrees .node bound (TokenWalk.node bound) fun tokens => plain (parseNode tokens) := by
  -- A node has at least its word before the nodes in its block.
  induction bound with
  | zero => exact fun _ _ _ hlt => absurd hlt (Nat.not_lt_zero _)
  | succ bound ih =>
    intro calls tokens h hlt hc
    obtain ⟨t, rest, rfl⟩ := h.exists_cons
    have hshort : rest.length < bound := Nat.lt_of_succ_lt_succ hlt
    have habove : Above ((.node, (t :: rest).length) :: calls) rest.length := hc.above_cons (Nat.lt_succ_self _)
    dsimp only
    rw [TokenWalk.node, called_eq hc, plain_parseNode]
    by_cases hk : t.kind = .name
    case neg =>
      rw [if_neg hk, Walk.bind_of_error (consume_of_ne hk)]
      rfl
    case pos =>
      rw [if_pos hk, Walk.bind_of_ok (consume_of_eq hk (by decide))]
      cases Kind.ofWord? (String.ofList (Text.lower t.text.toList)) with
      | none => rfl
      | some kind =>
        dsimp only
        have hrest := h.tail (ne_of_eq_of_ne hk (by decide))
        refine Walk.bind_eq_mapError
          (attributes_eq [] habove hrest (Nat.le_refl _) hshort hshort) fun given left hgiven => ?_
        obtain ⟨hleft, hlen⟩ := endsOnce_of_parseAttributes hrest hgiven
        obtain ⟨b, left, rfl⟩ := hleft.exists_cons
        dsimp only
        simp only [List.length_cons] at hlen
        by_cases hopen : b.kind = .sign .openBrace
        · rw [if_pos hopen, Walk.bind_of_ok (accept_of_eq hopen (sign_ne_ending _)), if_pos rfl]
          have hinner := hleft.tail (ne_of_eq_of_ne hopen (sign_ne_ending _))
          refine Walk.bind_eq_mapError (body_eq ih hinner (by omega) (habove.mono (by omega))) fun children left _ => ?_
          cases buildAt t kind given <;> rfl
        rw [if_neg hopen, Walk.bind_of_ok (accept_of_ne hopen), if_neg Bool.false_ne_true]
        by_cases hnext : b.kind = .newline ∨ b.kind = .sign .closeBrace ∨ b.kind = .ending
        · have hmem : b.kind ∈ [TokenKind.newline, .sign .closeBrace, .ending] := by simpa using hnext
          rw [if_pos hnext, Walk.bind_of_ok (among_of_mem hmem), if_pos rfl]
          cases buildAt t kind given <;> rfl
        · have hmem : b.kind ∉ [TokenKind.newline, .sign .closeBrace, .ending] := by simpa using hnext
          rw [if_neg hnext, Walk.bind_of_ok (among_of_not_mem hmem)]
          rfl

theorem node_eq (h : EndsOnce tokens) (hlt : tokens.length < bound) (hc : Clear .node calls tokens.length) :
    TokenWalk.node bound calls tokens = (plain (parseNode tokens)).mapError .fault :=
  agrees_node bound calls tokens h hlt hc

end SceneTree.Markup.TokenWalk
