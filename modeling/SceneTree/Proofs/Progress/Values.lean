import SceneTree.Proofs.Progress.Tokens

/-!
# Walking over values

The routines for values, lists and maps come to what the parser makes of the tokens, when their bound exceeds the number
of tokens.
-/

namespace SceneTree.Markup.TokenWalk

variable {α : Type} {calls : Calls} {n bound turns : Nat} {t : Token} {tokens rest left : List Token}

/-- A routine comes to what a part of the parser makes of the tokens, wherever it may be called. -/
def Agrees (routine : Routine) (bound : Nat) (walk : Calls → TokenWalk α)
    (parse : List Token → Except GrammarFault (α × List Token)) : Prop :=
  ∀ calls tokens, EndsOnce tokens → tokens.length < bound → Clear routine calls tokens.length →
    walk calls tokens = (parse tokens).mapError .fault

theorem endsOnce_of_parseValue {v : Value} (h : EndsOnce tokens) (hv : plain (parseValue tokens) = .ok (v, left)) :
    EndsOnce left ∧ left.length < tokens.length := by
  obtain ⟨ts, hts, hvalue⟩ := isValue_of_parseValue tokens hv
  exact ⟨(hts ▸ h).of_append hvalue.unfinished, bound_of_plain hv⟩

variable {value : Calls → TokenWalk Value}

/-- The items of a list are read as the parser reads them. -/
theorem list_eq (hv : Agrees .value bound value fun tokens => plain (parseValue tokens)) (h : EndsOnce tokens)
    (hlt : tokens.length < bound) (hc : Above calls tokens.length) :
    list value bound calls tokens = (plain (parseItems (afterNewlines tokens))).mapError .fault := by
  rw [list, called_eq (hc.clear .list), Walk.bind_of_ok (newlines_eq h hlt)]
  refine (separated_eq (fun tokens => plain (parseValue tokens)) (fun tokens => plain (parseItems tokens))
    plain_parseItems
    (fun left hleft hle => hv _ left hleft (Nat.lt_of_le_of_lt hle hlt) (hc.clear_cons hle (by decide)))
    (fun tokens a left => endsOnce_of_parseValue) hlt [] h.afterNewlines (length_afterNewlines_le tokens)
    (Nat.lt_of_le_of_lt (length_afterNewlines_le tokens) hlt)).trans ?_
  cases plain (parseItems (afterNewlines tokens)) with
  | error => rfl
  | ok read =>
    have hitems : read.1.foldl (fun values v => values ++ [v]) [] = read.1 := by simp [← List.flatMap_def]
    exact congrArg (fun items => Except.ok (items, read.2)) hitems

/-- An entry of a map, as the parser reads it. -/
def plainEntry (tokens : List Token) : Except GrammarFault ((Value × Value) × List Token) :=
  match tokens with
  | [] => .error .exhausted
  | k :: rest =>
    if k.kind = .name ∨ k.kind = .string then
      match rest with
      | [] => .error .exhausted
      | c :: rest =>
        if c.kind = .sign .colon then do
          let (v, left) ← plain (parseValue rest)
          return ((.str k.text, v), left)
        else .error (.expected .keyEnd c.position)
    else .error (.expected .key k.position)

theorem plain_parsePairs_eq (t : Token) (rest : List Token) :
    plain (parsePairs (t :: rest)) =
      if t.kind = .sign .closeBrace then .ok ([], rest)
      else (do
        let (p, left) ← plainEntry (t :: rest)
        match afterNewlines left with
        | [] => .error .exhausted
        | t' :: rest' =>
          if t'.kind = .sign .comma then do
            let (pairs, left') ← plain (parsePairs (afterNewlines rest'))
            return (p :: pairs, left')
          else if t'.kind = .sign .closeBrace then .ok ([p], rest')
          else .error (.expected .mapEnd t'.position)) := by
  rw [plain_parsePairs, plainEntry.eq_def]
  dsimp only
  by_cases hclose : t.kind = .sign .closeBrace
  · rw [if_pos hclose, if_pos hclose]
  rw [if_neg hclose, if_neg hclose]
  by_cases hk : t.kind = .name ∨ t.kind = .string
  · rw [if_pos hk, if_pos hk]
    cases rest with
    | nil => rfl
    | cons c rest =>
      dsimp only
      by_cases hcolon : c.kind = .sign .colon
      · rw [if_pos hcolon, if_pos hcolon]
        cases plain (parseValue rest) <;> rfl
      · rw [if_neg hcolon, if_neg hcolon]
        rfl
  · rw [if_neg hk, if_neg hk]
    rfl

/-- The ending does not stand where the key of a map does. -/
theorem ne_ending_of_key (hk : t.kind = .name ∨ t.kind = .string) : t.kind ≠ .ending := by
  rcases hk with hk | hk
  · exact ne_of_eq_of_ne hk (by decide)
  · exact ne_of_eq_of_ne hk (by decide)

theorem endsOnce_of_plainEntry {p : Value × Value} (h : EndsOnce tokens) (hp : plainEntry tokens = .ok (p, left)) :
    EndsOnce left ∧ left.length < tokens.length := by
  obtain ⟨k, rest, rfl⟩ := h.exists_cons
  rw [plainEntry.eq_def] at hp
  dsimp only at hp
  by_cases hk : k.kind = .name ∨ k.kind = .string
  · rw [if_pos hk] at hp
    have hrest := h.tail (ne_ending_of_key hk)
    obtain ⟨c, rest, rfl⟩ := hrest.exists_cons
    dsimp only at hp
    by_cases hcolon : c.kind = .sign .colon
    · rw [if_pos hcolon] at hp
      obtain ⟨⟨v, left⟩, hv, hp⟩ := Outcome.bind_eq_ok_iff.mp hp
      cases hp
      obtain ⟨hended, hshort⟩ := endsOnce_of_parseValue (hrest.tail (ne_of_eq_of_ne hcolon (sign_ne_ending _))) hv
      simp only [List.length_cons]
      exact ⟨hended, by omega⟩
    · rw [if_neg hcolon] at hp
      cases hp
  · rw [if_neg hk] at hp
    cases hp

/-- An entry of a map is read as the parser reads it. -/
theorem entry_eq (hv : Agrees .value bound value fun tokens => plain (parseValue tokens)) (hc : Above calls n)
    (h : EndsOnce tokens) (hle : tokens.length ≤ n) (hn : n < bound) :
    entry value ((.map, n) :: calls) tokens = (plainEntry tokens).mapError .fault := by
  obtain ⟨k, rest, rfl⟩ := h.exists_cons
  have hclear : Clear .name ((.map, n) :: calls) (k :: rest).length := hc.clear_cons hle (by decide)
  rw [entry, plainEntry.eq_def]
  dsimp only
  by_cases hk : k.kind = .name ∨ k.kind = .string
  · rw [if_pos hk, Walk.bind_of_ok (key_of_mem hk hclear)]
    have hrest := h.tail (ne_ending_of_key hk)
    obtain ⟨c, rest, rfl⟩ := hrest.exists_cons
    dsimp only
    by_cases hcolon : c.kind = .sign .colon
    · rw [if_pos hcolon, Walk.bind_of_ok (consume_of_eq hcolon (sign_ne_ending _))]
      have hshort : rest.length ≤ n := by
        simp only [List.length_cons] at hle
        omega
      have hvalue := hv ((.map, n) :: calls) rest (hrest.tail (ne_of_eq_of_ne hcolon (sign_ne_ending _)))
        (Nat.lt_of_le_of_lt hshort hn) (hc.clear_cons hshort (by decide))
      exact Walk.bind_eq_mapError hvalue fun _ _ _ => rfl
    · rw [if_neg hcolon, Walk.bind_of_error (consume_of_ne hcolon)]
      rfl
  · rw [if_neg hk, Walk.bind_of_error (key_of_not_mem hk hclear)]
    rfl

/-- The entries of a map are read as the parser reads them. -/
theorem map_eq (hv : Agrees .value bound value fun tokens => plain (parseValue tokens)) (h : EndsOnce tokens)
    (hlt : tokens.length < bound) (hc : Above calls tokens.length) :
    map value bound calls tokens = ((plain (parsePairs (afterNewlines tokens))).map fun (pairs, left) =>
      (Entries.ofPairs pairs, left)).mapError .fault := by
  rw [map, called_eq (hc.clear .map), Walk.bind_of_ok (newlines_eq h hlt)]
  exact separated_eq plainEntry (fun tokens => plain (parsePairs tokens)) plain_parsePairs_eq
    (fun left hleft hle => entry_eq hv hc hleft hle hlt) (fun tokens p left => endsOnce_of_plainEntry) hlt []
    h.afterNewlines (length_afterNewlines_le tokens) (Nat.lt_of_le_of_lt (length_afterNewlines_le tokens) hlt)

/-- Values are read as the parser reads them. -/
theorem agrees_value (bound : Nat) :
    Agrees .value bound (TokenWalk.value bound) fun tokens => plain (parseValue tokens) := by
  -- A list or a map has at least its opening sign before the values in it: the bound for these is smaller by one.
  induction bound with
  | zero => exact fun _ _ _ hlt => absurd hlt (Nat.not_lt_zero _)
  | succ bound ih =>
    intro calls tokens h hlt hc
    obtain ⟨t, rest, rfl⟩ := h.exists_cons
    have hshort : rest.length < bound := Nat.lt_of_succ_lt_succ hlt
    have habove : Above ((.value, (t :: rest).length) :: calls) rest.length := hc.above_cons (Nat.lt_succ_self _)
    rw [TokenWalk.value, called_eq hc, Walk.bind_of_ok rfl]
    dsimp only
    rw [plain_parseValue]
    cases hk : t.kind with
    | string | keyword =>
      dsimp only
      rw [Walk.bind_of_ok (advance_of_ne (ne_of_eq_of_ne hk (by decide)))]
      rfl
    | number =>
      dsimp only
      rw [Walk.bind_of_ok (advance_of_ne (ne_of_eq_of_ne hk (by decide))), Walk.ofExcept_apply]
      cases numberValue t.text <;> rfl
    | sign s =>
      have hne : t.kind ≠ .ending := ne_of_eq_of_ne hk (sign_ne_ending s)
      have hended := h.tail hne
      cases s with
      | openBracket =>
        dsimp only
        rw [Walk.bind_of_ok (advance_of_ne hne)]
        exact Walk.bind_eq_mapError (list_eq ih hended hshort habove) fun _ _ _ => rfl
      | openBrace =>
        dsimp only
        rw [Walk.bind_of_ok (advance_of_ne hne)]
        have hmap := map_eq ih hended hshort habove
        cases hp : plain (parsePairs (afterNewlines rest)) with
        | error =>
          rw [hp] at hmap
          exact Walk.bind_of_error hmap
        | ok =>
          rw [hp] at hmap
          exact Walk.bind_of_ok hmap
      | _ => rfl
    | _ => rfl

theorem value_eq (h : EndsOnce tokens) (hlt : tokens.length < bound) (hc : Clear .value calls tokens.length) :
    TokenWalk.value bound calls tokens = (plain (parseValue tokens)).mapError .fault :=
  agrees_value bound calls tokens h hlt hc

end SceneTree.Markup.TokenWalk
