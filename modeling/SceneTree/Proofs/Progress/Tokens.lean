import SceneTree.Proofs.Markup.Faults
import SceneTree.Proofs.Progress.TokenWalk

/-!
# Moving along tokens

Every token but the ending can be passed, so that a walk over tokens with an ending never stands behind the last. A
routine that has read something may call every routine, and one that has read nothing every other routine.
-/

namespace SceneTree.Markup

/-- An ending stands behind some tokens, and nowhere among them. -/
inductive EndsOnce : List Token → Prop where
  | last {e : Token} (h : e.kind = .ending) : EndsOnce [e]
  | cons {t : Token} {rest : List Token} (ht : t.kind ≠ .ending) (h : EndsOnce rest) : EndsOnce (t :: rest)

namespace EndsOnce

variable {t : Token} {rest ts left tokens : List Token}

theorem exists_cons (h : EndsOnce tokens) : ∃ t rest, tokens = t :: rest := by
  cases h with
  | last => exact ⟨_, _, rfl⟩
  | cons => exact ⟨_, _, rfl⟩

theorem tail (h : EndsOnce (t :: rest)) (ht : t.kind ≠ .ending) : EndsOnce rest := by
  cases h with
  | last he => exact absurd he ht
  | cons _ h => exact h

theorem finished (h : EndsOnce tokens) : Finished tokens := by
  induction h with
  | last he => exact ⟨_, rfl, he⟩
  | @cons t rest _ _ ih =>
    obtain ⟨e, hlast, he⟩ := ih
    refine ⟨e, ?_, he⟩
    rw [← List.singleton_append, List.getLast?_append, Option.mem_def.mp hlast]
    rfl

/-- What follows tokens that do not stop with an ending. -/
theorem of_append (h : EndsOnce (ts ++ left)) (hts : Unfinished ts) : EndsOnce left := by
  induction ts with
  | nil => exact h
  | cons t rest ih =>
    generalize hl : rest ++ left = behind at ih
    rw [List.cons_append, hl] at h
    cases h with
    | last he =>
      obtain ⟨rfl, rfl⟩ := List.append_eq_nil_iff.mp hl
      exact absurd he (hts t rfl)
    | cons _ h =>
      refine ih h fun last hlast => hts last ?_
      rw [List.getLast?_cons, Option.mem_def.mp hlast]
      rfl

theorem afterNewlines (h : EndsOnce tokens) : EndsOnce (afterNewlines tokens) := by
  obtain ⟨ns, hn, heq⟩ := exists_newlines tokens
  rw [heq] at h
  exact h.of_append (unfinished_of_forall fun t ht => ne_of_eq_of_ne (hn t ht) (by decide))

end EndsOnce

theorem endsOnce_append {init : List Token} {e : Token} (he : e.kind = .ending) (h : ∀ t ∈ init, t.kind ≠ .ending) :
    EndsOnce (init ++ [e]) := by
  induction init with
  | nil => exact .last he
  | cons t rest ih =>
    obtain ⟨ht, hrest⟩ := List.forall_mem_cons.mp h
    exact .cons ht (ih hrest)

/-- What a text is scanned into. -/
theorem endsOnce_of_scan {text : String} {tokens : List Token} (h : scan text = .ok tokens) : EndsOnce tokens := by
  obtain ⟨init, e, rfl, he, hinit⟩ := scan_eq_append h
  exact endsOnce_append he fun t ht => (hinit t ht).1

namespace TokenWalk

/-! ### Calls -/

/-- All open calls were made with more tokens left. -/
def Above (calls : Calls) (n : Nat) : Prop := ∀ call ∈ calls, n < call.2

/-- No open call was made with fewer tokens left, and those of a routine were made with more. -/
def Clear (routine : Routine) (calls : Calls) (n : Nat) : Prop :=
  ∀ call ∈ calls, n ≤ call.2 ∧ (call.1 = routine → n < call.2)

variable {calls : Calls} {routine other : Routine} {m n : Nat}

theorem Above.clear (h : Above calls n) (routine : Routine) : Clear routine calls n :=
  fun call hc => ⟨Nat.le_of_lt (h call hc), fun _ => h call hc⟩

theorem Above.mono (h : Above calls n) (hmn : m ≤ n) : Above calls m :=
  fun call hc => Nat.lt_of_le_of_lt hmn (h call hc)

/-- A routine that has read something calls others. -/
theorem Clear.above_cons (h : Clear routine calls n) (hmn : m < n) : Above ((other, n) :: calls) m :=
  List.forall_mem_cons.mpr ⟨hmn, fun call hc => Nat.lt_of_lt_of_le hmn (h call hc).1⟩

/-- A routine that may have read nothing calls another one. -/
theorem Above.clear_cons (h : Above calls n) (hmn : m ≤ n) (hne : other ≠ routine) :
    Clear routine ((other, n) :: calls) m :=
  List.forall_mem_cons.mpr ⟨⟨hmn, fun heq => absurd heq hne⟩, (h.mono hmn).clear routine⟩

variable {α : Type} {walk : Calls → TokenWalk α} {tokens : List Token}

/-- A routine is called when every open call of it has read something since. -/
theorem called_eq (h : Clear routine calls tokens.length) :
    called routine calls walk tokens = walk ((routine, tokens.length) :: calls) tokens := by
  have hnone : (calls.any fun call => call.1 = routine && call.2 ≤ tokens.length) = false := by
    rw [List.any_eq_false]
    intro call hc
    simp only [Bool.and_eq_true, decide_eq_true_eq, not_and, Nat.not_le]
    exact (h call hc).2
  rw [called, hnone, if_neg Bool.false_ne_true]

/-! ### Single tokens -/

theorem sign_ne_ending (sign : Sign) : TokenKind.sign sign ≠ .ending := fun h => by cases h

variable {t : Token} {rest left : List Token} {kind : TokenKind} {what : Expectation} {bound turns : Nat}

theorem advance_of_ne (h : t.kind ≠ .ending) : advance (t :: rest) = .ok (t, rest) := by
  rw [advance, if_neg h]

theorem check_of_eq (h : t.kind = kind) : check kind (t :: rest) = .ok (true, t :: rest) := by
  rw [check, Walk.bind_of_ok rfl, beq_iff_eq.mpr h]
  rfl

theorem check_of_ne (h : t.kind ≠ kind) : check kind (t :: rest) = .ok (false, t :: rest) := by
  rw [check, Walk.bind_of_ok rfl, beq_eq_false_iff_ne.mpr h]
  rfl

theorem accept_of_eq (h : t.kind = kind) (hk : kind ≠ .ending) : accept kind (t :: rest) = .ok (true, rest) := by
  rw [accept, Walk.bind_of_ok (check_of_eq h), if_pos rfl, Walk.bind_of_ok (advance_of_ne (h ▸ hk))]
  rfl

theorem accept_of_ne (h : t.kind ≠ kind) : accept kind (t :: rest) = .ok (false, t :: rest) := by
  rw [accept, Walk.bind_of_ok (check_of_ne h), if_neg Bool.false_ne_true]
  rfl

theorem consume_of_eq (h : t.kind = kind) (hk : kind ≠ .ending) : consume kind what (t :: rest) = .ok (t, rest) := by
  rw [consume, Walk.bind_of_ok rfl, if_pos h, advance_of_ne (h ▸ hk)]

theorem consume_of_ne (h : t.kind ≠ kind) :
    consume kind what (t :: rest) = .error (.fault (.expected what t.position)) := by
  rw [consume, Walk.bind_of_ok rfl, if_neg h]
  rfl

/-- The newlines at the beginning are read. -/
theorem newlines_eq (h : EndsOnce tokens) (hlt : tokens.length < turns) :
    newlines turns tokens = .ok ((), afterNewlines tokens) := by
  induction h generalizing turns with
  | @last e he =>
    obtain ⟨turns, rfl⟩ := Nat.exists_eq_add_one.mpr (Nat.zero_lt_of_lt hlt)
    have hne : e.kind ≠ .newline := ne_of_eq_of_ne he (by decide)
    rw [afterNewlines_of_ne hne]
    exact Walk.loop_of_not (check_of_ne hne)
  | @cons t rest ht hrest ih =>
    obtain ⟨turns, rfl⟩ := Nat.exists_eq_add_one.mpr (Nat.zero_lt_of_lt hlt)
    by_cases hk : t.kind = .newline
    · rw [show afterNewlines (t :: rest) = afterNewlines rest from List.dropWhile_cons_of_pos (beq_iff_eq.mpr hk)]
      refine (Walk.loop_of_more (by exact check_of_eq hk) (Walk.bind_of_ok (advance_of_ne ht))
        (by exact Nat.lt_succ_self _)).trans ?_
      exact ih (Nat.lt_of_succ_lt_succ hlt)
    · rw [afterNewlines_of_ne hk]
      exact Walk.loop_of_not (check_of_ne hk)

/-- A comma that is followed by another item, or the closing sign. -/
theorem separator_eq (close : Sign) (what : Expectation) (h : EndsOnce left) (hlt : left.length < bound) :
    ∃ t rest, afterNewlines left = t :: rest ∧ EndsOnce (t :: rest) ∧ (t :: rest).length ≤ left.length ∧
      separator close what bound left =
        if t.kind = .sign .comma then .ok (true, afterNewlines rest)
        else if t.kind = .sign close then .ok (false, rest)
        else .error (.fault (.expected what t.position)) := by
  have hended := h.afterNewlines
  have hle := length_afterNewlines_le left
  have hread := newlines_eq h hlt
  obtain ⟨t, rest, hl⟩ := hended.exists_cons
  rw [hl] at hended hle hread
  refine ⟨t, rest, hl, hended, hle, ?_⟩
  rw [separator, Walk.bind_of_ok hread]
  by_cases hcomma : t.kind = .sign .comma
  · have hrest : rest.length < bound := by
      rw [List.length_cons] at hle
      omega
    rw [Walk.bind_of_ok (accept_of_eq hcomma (sign_ne_ending _)), if_pos rfl, if_pos hcomma,
      Walk.bind_of_ok (newlines_eq (hended.tail (ne_of_eq_of_ne hcomma (sign_ne_ending _))) hrest)]
    rfl
  · rw [Walk.bind_of_ok (accept_of_ne hcomma), if_neg Bool.false_ne_true, if_neg hcomma]
    by_cases hclose : t.kind = .sign close
    · rw [Walk.bind_of_ok (consume_of_eq hclose (sign_ne_ending _)), if_pos hclose]
      rfl
    · rw [Walk.bind_of_error (consume_of_ne hclose), if_neg hclose]

theorem unclosed_of_eq {close : Sign} (h : t.kind = .sign close) :
    unclosed close (t :: rest) = .ok (false, rest) := by
  rw [unclosed, Walk.bind_of_ok (accept_of_eq h (sign_ne_ending _))]
  rfl

theorem unclosed_of_ne {close : Sign} (h : t.kind ≠ .sign close) :
    unclosed close (t :: rest) = .ok (true, t :: rest) := by
  rw [unclosed, Walk.bind_of_ok (accept_of_ne h)]
  rfl

/-- Items are read in turns until the closing sign. -/
theorem separated_eq {β γ : Type} {close : Sign} {item : TokenWalk β} {add : γ → β → γ}
    (parseItem : List Token → Except GrammarFault (β × List Token))
    (parseItems : List Token → Except GrammarFault (List β × List Token))
    (hparse : ∀ t rest, parseItems (t :: rest) =
      if t.kind = .sign close then .ok ([], rest)
      else do
        let (a, left) ← parseItem (t :: rest)
        match afterNewlines left with
        | [] => .error .exhausted
        | t' :: rest' =>
          if t'.kind = .sign .comma then do
            let (items, left') ← parseItems (afterNewlines rest')
            return (a :: items, left')
          else if t'.kind = .sign close then .ok ([a], rest')
          else .error (.expected what t'.position))
    (hitem : ∀ tokens, EndsOnce tokens → tokens.length ≤ n → item tokens = (parseItem tokens).mapError .fault)
    (hleft : ∀ tokens a left, EndsOnce tokens → parseItem tokens = .ok (a, left) →
      EndsOnce left ∧ left.length < tokens.length)
    (hn : n < bound) (items : γ) (h : EndsOnce tokens) (hle : tokens.length ≤ n) (hlt : tokens.length < turns) :
    separated close what item add bound turns items tokens =
      ((parseItems tokens).map fun (more, left) => (more.foldl add items, left)).mapError .fault := by
  -- `n` bounds what is left during the whole loop, and with it the loops within a turn; `turns` goes down.
  induction turns generalizing tokens items with
  | zero => exact absurd hlt (Nat.not_lt_zero _)
  | succ turns ih =>
    obtain ⟨t, rest, rfl⟩ := h.exists_cons
    rw [hparse]
    by_cases hclose : t.kind = .sign close
    · rw [if_pos hclose]
      exact Walk.loop_of_not (unclosed_of_eq hclose)
    rw [if_neg hclose]
    have hread := hitem (t :: rest) h hle
    cases ha : parseItem (t :: rest) with
    | error fault =>
      rw [ha] at hread
      exact Walk.loop_of_error (unclosed_of_ne hclose) (Walk.bind_of_error hread)
    | ok read =>
      obtain ⟨a, left⟩ := read
      rw [ha] at hread
      obtain ⟨hended, hshort⟩ := hleft _ _ _ h ha
      obtain ⟨t', rest', heq, hended', hle', hsep⟩ :=
        separator_eq close what hended (Nat.lt_trans hshort (Nat.lt_of_le_of_lt hle hn))
      have hturn : ∀ r, separator close what bound left = r →
          (do
            let a ← item
            let more ← separator close what bound
            pure (add items a, more) : TokenWalk (γ × Bool)) (t :: rest) =
            r.map fun p => ((add items a, p.1), p.2) := by
        rintro r rfl
        rw [Walk.bind_of_ok hread]
        cases hr : separator close what bound left with
        | error => rw [Walk.bind_of_error hr]; rfl
        | ok => rw [Walk.bind_of_ok hr]; rfl
      replace hturn := hturn _ hsep
      have hrest : rest'.length < (t :: rest).length := Nat.lt_trans (Nat.lt_of_succ_le hle') hshort
      dsimp only [bind, Except.bind]
      rw [heq]
      dsimp only
      by_cases hcomma : t'.kind = .sign .comma
      · rw [if_pos hcomma] at hturn ⊢
        have hbehind : (afterNewlines rest').length < (t :: rest).length :=
          Nat.lt_of_le_of_lt (length_afterNewlines_le rest') hrest
        have htail := (hended'.tail (ne_of_eq_of_ne hcomma (sign_ne_ending _))).afterNewlines
        refine (Walk.loop_of_more (by exact unclosed_of_ne hclose) hturn hbehind).trans ?_
        refine (ih _ htail (by omega) (by omega)).trans ?_
        cases parseItems (afterNewlines rest') <;> rfl
      rw [if_neg hcomma] at hturn ⊢
      by_cases hclose' : t'.kind = .sign close
      · rw [if_pos hclose'] at hturn ⊢
        exact Walk.loop_of_last (unclosed_of_ne hclose) hturn hrest
      · rw [if_neg hclose'] at hturn ⊢
        exact Walk.loop_of_error (unclosed_of_ne hclose) hturn

theorem key_of_mem (h : t.kind = .name ∨ t.kind = .string) (hc : Clear .name calls (t :: rest).length) :
    key calls (t :: rest) = .ok (t.text, rest) := by
  rw [key, called_eq hc, Walk.bind_of_ok rfl]
  rcases h with h | h
  · simp only [h]
    rw [Walk.bind_of_ok (advance_of_ne (ne_of_eq_of_ne h (by decide)))]
    rfl
  · simp only [h]
    rw [Walk.bind_of_ok (advance_of_ne (ne_of_eq_of_ne h (by decide)))]
    rfl

theorem key_of_not_mem (h : ¬ (t.kind = .name ∨ t.kind = .string)) (hc : Clear .name calls (t :: rest).length) :
    key calls (t :: rest) = .error (.fault (.expected .key t.position)) := by
  rw [key, called_eq hc, Walk.bind_of_ok rfl]
  cases hk : t.kind with
  | name => exact absurd (.inl hk) h
  | string => exact absurd (.inr hk) h
  | _ => rfl

end TokenWalk

end SceneTree.Markup
