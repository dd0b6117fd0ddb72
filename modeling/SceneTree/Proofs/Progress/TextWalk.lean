import SceneTree.Markup.Scan
import SceneTree.Proofs.Progress.Walk

/-!
# Walking over a text

The tokens of a text once more, this time read character by character in loops. No character is read behind the end of
the text, every turn of a loop reads at least one, and the tokens are those that the text is scanned into.
-/

namespace SceneTree.Markup

/-- A place in a text, and what stands from there on. -/
structure Cursor where
  position : Position
  text : List Char

namespace Cursor

/-- How many characters are left. -/
def size (cursor : Cursor) : Nat := cursor.text.length

/-- What is left after some characters. -/
def skip (cursor : Cursor) (n : Nat) : Cursor := ⟨cursor.position.afterAll (cursor.text.take n), cursor.text.drop n⟩

@[simp] theorem skip_zero (cursor : Cursor) : cursor.skip 0 = cursor := by simp [skip]

@[simp] theorem skip_succ (p : Position) (c : Char) (rest : List Char) (n : Nat) :
    skip ⟨p, c :: rest⟩ (n + 1) = skip ⟨p.after c, rest⟩ n := by simp [skip]

end Cursor

/-- A walk over a text. -/
abbrev TextWalk (α : Type) := Walk Cursor ScanFault α

namespace TextWalk

/-- The place that is reached. -/
def place : TextWalk Position := fun cursor => .ok (cursor.position, cursor)

/-- What stands ahead; nothing of it is read. -/
def ahead : TextWalk (List Char) := fun cursor => .ok (cursor.text, cursor)

/-- Whether the end of the text is reached. -/
def atEnd : TextWalk Bool := fun cursor => .ok (cursor.text.isEmpty, cursor)

/-- Whether the end of the text is not reached. -/
def before : TextWalk Bool := do pure !(← atEnd)

/-- Whether there is a next character, and it has a property. -/
def next (p : Char → Bool) : TextWalk Bool := fun cursor => .ok (cursor.text.head?.any p, cursor)

/-- Reads a character. -/
def advance : TextWalk Char := fun cursor =>
  match cursor.text with
  | [] => .error (.breach .beyond)
  | c :: rest => .ok (c, ⟨cursor.position.after c, rest⟩)

/-- Reads characters while they have a property, and puts them after others. -/
def run (p : Char → Bool) (turns : Nat) (read : List Char) : TextWalk (List Char) :=
  Walk.loop Cursor.size (fun _ => next p) (fun read => do
    let c ← advance
    pure (read ++ [c], true)) turns read

/-- Reads a word. -/
def word (turns : Nat) : TextWalk Token := do
  let position ← place
  let c ← advance
  let text ← run continuesName turns [c]
  pure ⟨if keywords.contains (String.ofList text) then .keyword else .name, String.ofList text, position⟩

/-- Reads the digits of a number and one point at most, and puts them after a sign. -/
def digits (turns : Nat) (read : List Char) (pointSeen : Bool) : TextWalk (List Char × Bool) :=
  Walk.loop Cursor.size (fun (_, pointSeen) => next fun c => Text.isDigit c || c = '.' && !pointSeen)
    (fun (read, pointSeen) => do
      let c ← advance
      pure ((read ++ [c], pointSeen || !Text.isDigit c), true)) turns (read, pointSeen)

/-- Reads a sign if there is one. -/
def sign : TextWalk (List Char) := do
  if (← next (· = '-')) then pure [← advance] else pure []

/-- Reads a number. -/
def number (turns : Nat) : TextWalk Token := do
  let position ← place
  let (text, _) ← digits turns (← sign) false
  pure ⟨.number, String.ofList text, position⟩

/-- Reads a part of a string that begins at a place, and says whether it is the closing quote. -/
def stringTurn (quote : Char) (position : Position) (read : List Char) : TextWalk ((List Char × Bool) × Bool) := do
  let c ← advance
  if c = quote then pure ((read, true), false)
  else if c = '\\' then
    if (← atEnd) then pure ((read, false), false)
    else do
      let d ← advance
      pure ((read ++ [escaped d], false), true)
  else if c = '\n' then Walk.fail ⟨.unclosedString, position⟩
  else pure ((read ++ [c], false), true)

/-- Reads the rest of a string that begins at a place. -/
def stringRest (quote : Char) (position : Position) (turns : Nat) (read : List Char) : TextWalk Token := do
  let (text, closed) ← Walk.loop Cursor.size (fun _ => before) (fun (read, _) => stringTurn quote position read) turns
    (read, false)
  if closed then pure ⟨.string, String.ofList text, position⟩ else Walk.fail ⟨.unclosedString, position⟩

/-- Reads a string. -/
def string (quote : Char) (turns : Nat) : TextWalk Token := do
  let position ← place
  let _ ← advance
  stringRest quote position turns []

/-- Reads a blank, a comment or a token; a token is put after others. -/
def turn (turns : Nat) (tokens : List Token) : TextWalk (List Token × Bool) := do
  let position ← place
  match ← ahead with
  | [] => Walk.stop .beyond
  | c :: rest =>
    if isGap c then do
      let _ ← advance
      pure (tokens, true)
    else if c = '\n' then do
      let _ ← advance
      pure (tokens ++ [⟨.newline, String.ofList [c], position⟩], true)
    else if c = '#' then do
      let _ ← run (· != '\n') turns []
      pure (tokens, true)
    else if c = '"' || c = '\'' then do pure (tokens ++ [← string c turns], true)
    else if beginsNumber c rest then do pure (tokens ++ [← number turns], true)
    else if beginsName c then do pure (tokens ++ [← word turns], true)
    else
      match Sign.ofChar? c with
      | some sign => do
        let _ ← advance
        pure (tokens ++ [⟨.sign sign, String.ofList [c], position⟩], true)
      | none => Walk.fail ⟨.unexpected c, position⟩

/-- Reads the rest of a text, and puts its tokens and the ending after others; the loops within a turn have a bound of
their own. -/
def tokens (within turns : Nat) (read : List Token) : TextWalk (List Token) := do
  let found ← Walk.loop Cursor.size (fun _ => before) (turn within) turns read
  let position ← place
  pure (found ++ [⟨.ending, "", position⟩])

/-! ### What is read -/

variable {p : Char → Bool} {turns : Nat} {position : Position} {c : Char} {rest text : List Char}

theorem next_of_cons {b : Bool} (h : p c = b) : next p ⟨position, c :: rest⟩ = .ok (b, ⟨position, c :: rest⟩) := by
  rw [← h]
  rfl

/-- The characters at the beginning that have a property are read. -/
theorem run_eq (p : Char → Bool) (position : Position) (text read : List Char) (h : text.length < turns) :
    run p turns read ⟨position, text⟩ =
      .ok (read ++ text.takeWhile p, Cursor.skip ⟨position, text⟩ (text.takeWhile p).length) := by
  induction text generalizing position turns read with
  | nil =>
    obtain ⟨turns, rfl⟩ := Nat.exists_eq_add_one.mpr (Nat.zero_lt_of_lt h)
    refine (Walk.loop_of_not rfl).trans ?_
    simp
  | cons c rest ih =>
    obtain ⟨turns, rfl⟩ := Nat.exists_eq_add_one.mpr (Nat.zero_lt_of_lt h)
    cases hc : p c with
    | false =>
      refine (Walk.loop_of_not (by exact next_of_cons hc)).trans ?_
      simp [hc]
    | true =>
      refine (Walk.loop_of_more (by exact next_of_cons hc) rfl (by exact Nat.lt_succ_self _)).trans ?_
      refine (ih _ _ (Nat.lt_of_succ_lt_succ h)).trans ?_
      simp [hc]

/-- The digits at the beginning are read, with at most one point among them. -/
theorem digits_eq (position : Position) (text read : List Char) (pointSeen : Bool) (h : text.length < turns) :
    ∃ seen, digits turns read pointSeen ⟨position, text⟩ =
      .ok ((read ++ numberRun pointSeen text, seen),
        Cursor.skip ⟨position, text⟩ (numberRun pointSeen text).length) := by
  induction text generalizing position turns read pointSeen with
  | nil =>
    obtain ⟨turns, rfl⟩ := Nat.exists_eq_add_one.mpr (Nat.zero_lt_of_lt h)
    refine ⟨pointSeen, (Walk.loop_of_not rfl).trans ?_⟩
    simp [numberRun]
  | cons c rest ih =>
    obtain ⟨turns, rfl⟩ := Nat.exists_eq_add_one.mpr (Nat.zero_lt_of_lt h)
    cases hc : Text.isDigit c || c = '.' && !pointSeen with
    | true =>
      have hrun : numberRun pointSeen (c :: rest) = c :: numberRun (pointSeen || !Text.isDigit c) rest := by
        rw [numberRun]
        cases hd : Text.isDigit c with
        | true => simp
        | false =>
          rw [hd, Bool.false_or] at hc
          simp [hc]
      obtain ⟨seen, hrest⟩ := ih (position.after c) (read ++ [c]) (pointSeen || !Text.isDigit c)
        (Nat.lt_of_succ_lt_succ h)
      refine ⟨seen, (Walk.loop_of_more (by exact next_of_cons hc) rfl (by exact Nat.lt_succ_self _)).trans
        (hrest.trans ?_)⟩
      simp [hrun]
    | false =>
      have hrun : numberRun pointSeen (c :: rest) = [] := by
        rw [Bool.or_eq_false_iff] at hc
        rw [numberRun, hc.1, if_neg Bool.false_ne_true, hc.2, if_neg Bool.false_ne_true]
      refine ⟨pointSeen, (Walk.loop_of_not (by exact next_of_cons hc)).trans ?_⟩
      simp [hrun]

theorem word_eq (position : Position) (c : Char) (rest : List Char) (h : rest.length < turns) :
    word turns ⟨position, c :: rest⟩ =
      .ok (⟨if keywords.contains (String.ofList (c :: rest.takeWhile continuesName)) then .keyword else .name,
          String.ofList (c :: rest.takeWhile continuesName), position⟩,
        Cursor.skip ⟨position, c :: rest⟩ ((rest.takeWhile continuesName).length + 1)) :=
  Walk.bind_of_ok (run_eq continuesName (position.after c) rest [c] h)

/-- A number is its sign and its digits. -/
theorem number_eq (position : Position) (h : (c :: rest).length < turns) (hc : beginsNumber c rest = true) :
    number turns ⟨position, c :: rest⟩ =
      .ok (⟨.number, String.ofList (c :: numberRest c rest), position⟩,
        Cursor.skip ⟨position, c :: rest⟩ ((numberRest c rest).length + 1)) := by
  by_cases hsign : c = '-'
  · subst hsign
    obtain ⟨seen, hdigits⟩ := digits_eq (position.after '-') rest ['-'] false (Nat.lt_of_succ_lt h)
    exact Walk.bind_of_ok hdigits
  · have hrun : numberRun false (c :: rest) = c :: numberRest c rest := by
      rw [numberRun, numberRest]
      by_cases hpoint : c = '.'
      · subst hpoint
        rfl
      · have hd : Text.isDigit c = true := by simpa [beginsNumber, hsign, hpoint] using hc
        rw [if_pos hd]
        simp [hpoint]
    obtain ⟨seen, hdigits⟩ := digits_eq position (c :: rest) [] false h
    rw [hrun, List.nil_append] at hdigits
    have hnone : sign ⟨position, c :: rest⟩ = .ok ([], ⟨position, c :: rest⟩) := by
      rw [sign, Walk.bind_of_ok (next_of_cons (decide_eq_false hsign))]
      rfl
    rw [number, Walk.bind_of_ok rfl, Walk.bind_of_ok hnone, Walk.bind_of_ok hdigits]
    rfl

theorem unescape_cons (hc : c ≠ '\\') (body : List Char) : unescape (c :: body) = c :: unescape body := by
  rw [unescape]
  exact fun _ _ h _ => hc h

variable {quote : Char} {place : Position} {read read' : List Char} {cursor : Cursor}

theorem stringRest_of_more
    (h : stringTurn quote place read ⟨position, c :: rest⟩ = .ok (((read', false), true), cursor))
    (hlt : cursor.size < (c :: rest).length) :
    stringRest quote place (turns + 1) read ⟨position, c :: rest⟩ = stringRest quote place turns read' cursor :=
  Walk.bind_congr (Walk.loop_of_more rfl h hlt)

theorem stringRest_of_last {closed : Bool}
    (h : stringTurn quote place read ⟨position, c :: rest⟩ = .ok (((read', closed), false), cursor))
    (hlt : cursor.size < (c :: rest).length) :
    stringRest quote place (turns + 1) read ⟨position, c :: rest⟩ =
      if closed then .ok (⟨.string, String.ofList read', place⟩, cursor)
      else .error (.fault ⟨.unclosedString, place⟩) :=
  (Walk.bind_of_ok (Walk.loop_of_last rfl h hlt)).trans (by cases closed <;> rfl)

/-- The rest of a string is what stands before its closing quote. -/
theorem stringRest_eq (quote : Char) (place position : Position) (text read : List Char) (h : text.length < turns) :
    stringRest quote place turns read ⟨position, text⟩ =
      match stringBody? quote text with
      | some body => .ok (⟨.string, String.ofList (read ++ unescape body), place⟩,
          Cursor.skip ⟨position, text⟩ (body.length + 1))
      | none => .error (.fault ⟨.unclosedString, place⟩) := by
  induction text using stringBody?.induct quote generalizing position turns read with
  | case1 =>
    obtain ⟨turns, rfl⟩ := Nat.exists_eq_add_one.mpr (Nat.zero_lt_of_lt h)
    exact Walk.bind_of_ok (Walk.loop_of_not rfl)
  | case2 rest =>
    obtain ⟨turns, rfl⟩ := Nat.exists_eq_add_one.mpr (Nat.zero_lt_of_lt h)
    have hturn : stringTurn quote place read ⟨position, quote :: rest⟩ =
        .ok (((read, true), false), ⟨position.after quote, rest⟩) := by
      rw [stringTurn, Walk.bind_of_ok rfl, if_pos rfl]
      rfl
    rw [stringRest_of_last hturn (Nat.lt_succ_self _), stringBody?.eq_def]
    simp [unescape]
  | case3 rest hq =>
    obtain ⟨turns, rfl⟩ := Nat.exists_eq_add_one.mpr (Nat.zero_lt_of_lt h)
    have hturn : stringTurn quote place read ⟨position, '\n' :: rest⟩ = .error (.fault ⟨.unclosedString, place⟩) := by
      rw [stringTurn, Walk.bind_of_ok rfl, if_neg hq, if_neg (by decide), if_pos rfl]
      rfl
    rw [stringRest, Walk.bind_of_error (Walk.loop_of_error rfl hturn), stringBody?.eq_def]
    simp only [if_neg hq, if_true]
  | case4 hq hn =>
    obtain ⟨turns, rfl⟩ := Nat.exists_eq_add_one.mpr (Nat.zero_lt_of_lt h)
    have hturn : stringTurn quote place read ⟨position, ['\\']⟩ =
        .ok (((read, false), false), ⟨position.after '\\', []⟩) := by
      rw [stringTurn, Walk.bind_of_ok rfl, if_neg hq, if_pos rfl, Walk.bind_of_ok rfl]
      rfl
    rw [stringRest_of_last hturn (Nat.lt_succ_self _), stringBody?, if_neg hq, if_neg hn, if_pos rfl]
    rfl
  | case5 d rest hq hn ih =>
    obtain ⟨turns, rfl⟩ := Nat.exists_eq_add_one.mpr (Nat.zero_lt_of_lt h)
    simp only [List.length_cons] at h
    have hturn : stringTurn quote place read ⟨position, '\\' :: d :: rest⟩ =
        .ok (((read ++ [escaped d], false), true), ⟨(position.after '\\').after d, rest⟩) := by
      rw [stringTurn, Walk.bind_of_ok rfl, if_neg hq, if_pos rfl, Walk.bind_of_ok rfl]
      rfl
    rw [stringRest_of_more hturn (Nat.lt_succ_of_lt (Nat.lt_succ_self _)), ih _ _ (by omega), stringBody?, if_neg hq,
      if_neg hn, if_pos rfl]
    cases stringBody? quote rest with
    | none => rfl
    | some body => simp [unescape]
  | case6 c rest hq hn hb ih =>
    obtain ⟨turns, rfl⟩ := Nat.exists_eq_add_one.mpr (Nat.zero_lt_of_lt h)
    have hturn : stringTurn quote place read ⟨position, c :: rest⟩ =
        .ok (((read ++ [c], false), true), ⟨position.after c, rest⟩) := by
      rw [stringTurn, Walk.bind_of_ok rfl, if_neg hq, if_neg hb, if_neg hn]
      rfl
    rw [stringRest_of_more hturn (Nat.lt_succ_self _), ih _ _ (Nat.lt_of_succ_lt_succ h),
      stringBody?.eq_def quote (c :: rest)]
    simp only [if_neg hq, if_neg hb, if_neg hn]
    cases stringBody? quote rest with
    | none => rfl
    | some body => simp [unescape_cons hb]

theorem string_eq (quote c : Char) (position : Position) (rest : List Char) (h : rest.length < turns) :
    string quote turns ⟨position, c :: rest⟩ =
      match stringBody? quote rest with
      | some body => .ok (⟨.string, String.ofList (unescape body), position⟩,
          Cursor.skip ⟨position, c :: rest⟩ (body.length + 1 + 1))
      | none => .error (.fault ⟨.unclosedString, position⟩) := by
  rw [string, Walk.bind_of_ok rfl, Walk.bind_of_ok rfl]
  exact stringRest_eq quote position (position.after c) rest [] h

/-- The token that was found at a place, if one was. -/
def tokenAt (position : Position) (found : Option (TokenKind × List Char)) : List Token :=
  found.toList.map fun (kind, text) => ⟨kind, String.ofList text, position⟩

/-- A turn reads what stands at a place. -/
theorem turn_eq (position : Position) (tokens : List Token) (h : (c :: rest).length < turns) :
    turn turns tokens ⟨position, c :: rest⟩ =
      match lexeme c rest with
      | .ok (found, more) =>
        .ok ((tokens ++ tokenAt position found, true), Cursor.skip ⟨position, c :: rest⟩ (more + 1))
      | .error cause => .error (.fault ⟨cause, position⟩) := by
  have hrest : rest.length < turns := Nat.lt_of_succ_lt h
  rw [turn, Walk.bind_of_ok rfl, Walk.bind_of_ok rfl, lexeme]
  simp only
  by_cases hgap : isGap c = true
  · rw [if_pos hgap, if_pos hgap, Walk.bind_of_ok rfl]
    simp [tokenAt]
  rw [if_neg hgap, if_neg hgap]
  by_cases hnewline : c = '\n'
  · rw [if_pos hnewline, if_pos hnewline, Walk.bind_of_ok rfl]
    simp [tokenAt]
  rw [if_neg hnewline, if_neg hnewline]
  by_cases hcomment : c = '#'
  · rw [if_pos hcomment, if_pos hcomment, Walk.bind_of_ok (run_eq _ position (c :: rest) [] h)]
    simp [tokenAt, hcomment]
  rw [if_neg hcomment, if_neg hcomment]
  by_cases hquote : (c = '"' || c = '\'') = true
  · rw [if_pos hquote, if_pos hquote]
    cases hbody : stringBody? c rest with
    | none =>
      rw [Walk.bind_of_error (by rw [string_eq c c position rest hrest, hbody])]
    | some body =>
      rw [Walk.bind_of_ok (by rw [string_eq c c position rest hrest, hbody])]
      rfl
  rw [if_neg hquote, if_neg hquote]
  by_cases hnumber : beginsNumber c rest = true
  · rw [if_pos hnumber, if_pos hnumber, Walk.bind_of_ok (number_eq position h hnumber)]
    rfl
  rw [if_neg hnumber, if_neg hnumber]
  by_cases hname : beginsName c = true
  · rw [if_pos hname, if_pos hname, Walk.bind_of_ok (word_eq position c rest hrest)]
    rfl
  rw [if_neg hname, if_neg hname]
  cases Sign.ofChar? c with
  | none => rfl
  | some sign =>
    simp only
    rw [Walk.bind_of_ok rfl]
    simp [tokenAt]

/-- The tokens that are read are those that the text is scanned into. -/
theorem tokens_eq {within : Nat} (position : Position) (text : List Char) (read : List Token)
    (hw : text.length < within) (h : text.length < turns) :
    (tokens within turns read).outcome ⟨position, text⟩ =
      ((scanFrom position text).map (read ++ ·)).mapError .fault := by
  -- The bound of the loops within a turn stays, that of the turns goes down with the text.
  induction turns generalizing position text read with
  | zero => exact absurd h (Nat.not_lt_zero _)
  | succ turns ih =>
    cases text with
    | nil =>
      rw [Walk.outcome, tokens, Walk.bind_of_ok (Walk.loop_of_not rfl), scanFrom]
      rfl
    | cons c rest =>
      cases hl : lexeme c rest with
      | error cause =>
        have hturn : turn within read ⟨position, c :: rest⟩ = .error (.fault ⟨cause, position⟩) := by
          rw [turn_eq position read hw, hl]
        rw [Walk.outcome, tokens, Walk.bind_of_error (Walk.loop_of_error rfl hturn), scanFrom, hl]
        rfl
      | ok lexeme =>
        obtain ⟨found, more⟩ := lexeme
        have hturn : turn within read ⟨position, c :: rest⟩ =
            .ok ((read ++ tokenAt position found, true),
              ⟨position.afterAll (c :: rest.take more), rest.drop more⟩) := by
          rw [turn_eq position read hw, hl]
          simp [Cursor.skip]
        have hdrop : (rest.drop more).length < (c :: rest).length := by
          simp only [List.length_drop, List.length_cons]
          omega
        have hnext : tokens within (turns + 1) read ⟨position, c :: rest⟩ =
            tokens within turns (read ++ tokenAt position found)
              ⟨position.afterAll (c :: rest.take more), rest.drop more⟩ :=
          Walk.bind_congr (Walk.loop_of_more rfl hturn hdrop)
        rw [Walk.outcome, hnext]
        refine (ih _ _ _ (Nat.lt_trans hdrop hw) (Nat.lt_of_lt_of_le hdrop (Nat.le_of_lt_succ h))).trans ?_
        rw [scanFrom.eq_def position (c :: rest)]
        simp only [hl]
        cases scanFrom (position.afterAll (c :: rest.take more)) (rest.drop more) with
        | error => rfl
        | ok tokens =>
          cases found with
          | none => exact congrArg Except.ok (by simp [tokenAt])
          | some what => exact congrArg Except.ok (by simp [tokenAt])

end TextWalk

end SceneTree.Markup
